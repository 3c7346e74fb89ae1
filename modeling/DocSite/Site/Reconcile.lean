import DocSite.Site.Basic

namespace DocSite

def takeText (older newer : String) : String :=
  if newer = "" then older else newer

/-- A list, or the older one where it was never given; an older list without members is not taken
over. -/
def takeList (older newer : Option (List α)) : Option (List α) :=
  match newer with
  | some l => some l
  | none => older.filter fun l => !l.isEmpty

def Theme.reconcile (older newer : Theme) : Theme where
  logo := takeText older.logo newer.logo
  nav := takeList older.nav newer.nav
  sidebar := takeList older.sidebar newer.sidebar
  socialLinks := takeList older.socialLinks newer.socialLinks
  search := newer.search <|> older.search
  footer := newer.footer <|> older.footer
  lastUpdated := newer.lastUpdated <|> older.lastUpdated

def Site.reconcile (older newer : Site) : Site where
  title := takeText older.title newer.title
  description := takeText older.description newer.description
  lang := takeText older.lang newer.lang
  head := takeList older.head newer.head
  theme := older.theme.reconcile newer.theme

end DocSite
