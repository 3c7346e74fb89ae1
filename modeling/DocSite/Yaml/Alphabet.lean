namespace DocSite.Yaml

def isBreak (c : Char) : Bool :=
  let n := c.toNat
  n == 0x0d || n == 0x0a || n == 0x85 || n == 0x2028 || n == 0x2029

def isBlank (c : Char) : Bool := c == ' ' || c == '\t'

def isPrintable (c : Char) : Bool :=
  let n := c.toNat
  n == 0x0a || (0x20 ≤ n && n ≤ 0x7e) || (0xa0 ≤ n && n ≤ 0xd7ff) ||
    (0xe000 ≤ n && n ≤ 0xfffd && n != 0xfeff)

def isSpace (c : Char) : Bool := c == ' '

def isWordChar (c : Char) : Bool := c.isAlphanum || c == '_' || c == '-'

def isReadable (c : Char) : Bool :=
  let n := c.toNat
  n == 0x09 || n == 0x0a || n == 0x0d || (0x20 ≤ n && n ≤ 0x7e) || n == 0x85 ||
    (0xa0 ≤ n && n ≤ 0xfffd) || 0x10000 ≤ n

end DocSite.Yaml
