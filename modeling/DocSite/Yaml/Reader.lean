import DocSite.Yaml.Node.Reader
import DocSite.Yaml.Node.Tally

namespace DocSite.Yaml

def parse? (text : List Char) : Option Fields :=
  match readDocument text with
  | none => none
  | some none => some []
  | some (some node) => if node.withinAllowance .texts then node.declaration? else none

end DocSite.Yaml
