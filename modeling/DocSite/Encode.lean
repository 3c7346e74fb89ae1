import DocSite.Format
import DocSite.Json.Writer
import DocSite.Site.Declaration
import DocSite.Toml.Writer
import DocSite.Yaml.Page

namespace DocSite

def Site.encode (site : Site) : Format → String
  | .json => Json.page (Json.ofFields site.toFields)
  | .yaml => Yaml.write site.toTree
  | .toml => Toml.write site.toFields

def Site.encodeNamed (site : Site) (format : String) : Except Fault String :=
  match Format.named? format with
  | some format => .ok (site.encode format)
  | none => .error (Format.unknown format)

end DocSite
