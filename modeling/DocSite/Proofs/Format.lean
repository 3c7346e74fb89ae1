import DocSite.Decode
import DocSite.Encode
import DocSite.Proofs.Yaml.Page

namespace DocSite

section Blank

theorem Text.isBlankText_of_mem {s : String} {c : Char} (h : c ∈ s.toList)
    (hc : isBlank c = false) :
    isBlankText s = false := by
  rw [isBlankText, List.all_eq_false]
  exact ⟨c, h, by simp [hc]⟩

theorem Json.isBlankText_page (fields : List (String × Json)) :
    Text.isBlankText (page (.object fields)) = false := by
  have hbrace : '{' ∈ (page (.object fields)).toList := by
    rw [page, String.toList_ofList]
    cases fields with
    | nil => exact List.mem_cons_self
    | cons f r => exact List.mem_cons_self
  exact Text.isBlankText_of_mem hbrace (by decide)

theorem Yaml.isBlankText_write (e : String × Tree) (r : List (String × Tree)) :
    Text.isBlankText (write (.mapping (e :: r))) = false := by
  have hentry : ':' ∈ entryText 0 e.1 e.2.isBlock (writeTree 2 e.2) := by
    rw [entryText]
    split <;> simp
  have hcolon : ':' ∈ (write (.mapping (e :: r))).toList := by
    rw [write, String.toList_ofList, writeTree, entryBlocks]
    cases hr : entryBlocks 0 r with
    | nil => simp [stack, hentry]
    | cons b bs => simp [stack, hentry]
  exact Text.isBlankText_of_mem hcolon (by decide)

theorem Toml.isBlankText_write {fields : Fields} {key s : String} (h : (key, .text s) ∈ fields) :
    Text.isBlankText (write fields) = false := by
  have hmem : (key, Value.text s) ∈ ordered fields :=
    (Text.perm_sortBy _ _).mem_iff.mpr (List.mem_filter.mpr ⟨h, rfl⟩)
  have hline : fieldLine (key, .text s) ∈ ((ordered fields).map fun f =>
      writeEntry ([] ++ [f.1]) f.1 (dropNulls f.2)).filterMap Written.line? := by
    refine List.mem_filterMap.mpr ⟨_, List.mem_map.mpr ⟨_, hmem, rfl⟩, ?_⟩
    exact congrArg Written.line? (writeEntry_onLine (.text s) [key] key)
  have hequals : '=' ∈ (write fields).toList := by
    have hbody := writeBody_record [] fields
    rw [write, String.toList_ofList]
    refine hbody ▸ List.mem_append_left _ (List.mem_append_left _ ?_)
    exact List.mem_flatMap.mpr ⟨_, hline, by simp [fieldLine]⟩
  exact Text.isBlankText_of_mem hequals (by decide)

end Blank

section RoundTrip

theorem Format.decode_of_parse? {format : Format} {text : String} {read : Fields}
    (hblank : Text.isBlankText text = false) (h : format.parse? text.toList = some read) :
    format.decode text = .ok read := by
  have hname : Format.named? format.name = some format := by cases format <;> rfl
  rw [Format.decode, decodeNamed, hblank, hname]
  simp [h]

theorem Site.decode_json_of_fits {site : Site}
    (h : Json.Fits Json.depthLimit (Json.ofFields site.toFields)) :
    Format.json.decode (site.encode .json) = .ok site.toFields := by
  refine Format.decode_of_parse? ?_ ?_
  · rw [Site.encode, Json.ofFields, Json.ofValue_record]
    exact Json.isBlankText_page _
  · rw [Format.parse?, Site.encode, Json.parse?_page h]
    exact Json.toDeclaration?_ofFields site.plain_toFields

theorem Site.decode_json {site : Site} (h : site.menuLevels ≤ 4999) :
    Format.json.decode (site.encode .json) = .ok site.toFields :=
  Site.decode_json_of_fits (Json.fits_of_tabular (site.tabular_toFields (k := 4997) h))

theorem Site.decode_toml (site : Site) :
    ∃ read, Format.toml.decode (site.encode .toml) = .ok read ∧
      Fields.Restates read site.toFields := by
  have htabular := site.tabular_toFields (k := site.menuLevels) (Nat.le_add_right _ 2)
  obtain ⟨read, hparse, hrestates⟩ := Toml.parse?_write htabular
  refine ⟨read, Format.decode_of_parse? ?_ hparse, hrestates⟩
  have htitle : ("title", Value.text site.title) ∈ site.toFields := List.mem_cons_self
  exact Toml.isBlankText_write htitle

theorem Site.decode_yaml {site : Site} (h : site.WellFormed) (hkept : site.TextsKept)
    (hlevels : site.menuLevels ≤ 4999) :
    ∃ read, Format.yaml.decode (site.encode .yaml) = .ok read ∧
      Fields.Restates read site.filled.toFields := by
  obtain ⟨hcarried, hrestates⟩ :=
    site.filled.tells_toTree (k := 4997) h.filled site.given_filled hkept.filled hlevels
  obtain ⟨e, r, htree⟩ : ∃ e r, site.toTree = .mapping (e :: r) := ⟨_, _, rfl⟩
  rw [site.toTree_filled, htree] at hcarried hrestates
  have hparse := Yaml.parse?_write (by simp) hcarried (by decide)
  obtain ⟨read, hread, hrel⟩ := hrestates.fields? (Value.fields?_record site.filled.toFields)
  obtain rfl : Yaml.entryValues (e :: r) = read :=
    Option.some.inj ((Value.fields?_record _).symm.trans hread)
  rw [Site.encode, htree]
  exact ⟨_, Format.decode_of_parse? (Yaml.isBlankText_write e r) hparse, hrel⟩

theorem build_of_toFields {site : Site} (h : site.WellFormed)
    (hfree : CollisionFree (site.theme.sidebar.getD [])) (hlinks : site.LinksFixed) :
    ∃ r, build site.toFields = .ok r ∧ r.site = site :=
  ⟨⟨site, (Schema.site site.toFields).warnings⟩,
    build_eq_ok_iff.mpr ⟨(Site.declaredBy_toFields_iff h).mpr hlinks, hfree, rfl⟩, rfl⟩

/-- What a format needs to be read again. The readers of JSON and YAML follow ten thousand open
containers, which is enough for menus of 4999 levels. -/
def Format.Keeps (site : Site) : Format → Prop
  | .json => site.menuLevels ≤ 4999
  | .yaml => site.menuLevels ≤ 4999 ∧ site.TextsKept
  | .toml => True

def Format.kept (site : Site) : Format → Site
  | .json => site
  | .yaml => site.filled
  | .toml => site

theorem Site.build_decode {site : Site} (h : site.WellFormed)
    (hfree : CollisionFree (site.theme.sidebar.getD [])) (hlinks : site.LinksFixed)
    {format : Format} (hkeeps : format.Keeps site) :
    ∃ read r, format.decode (site.encode format) = .ok read ∧ build read = .ok r ∧
      r.site = format.kept site := by
  cases format with
  | json =>
    obtain ⟨r, hr, hsite⟩ := build_of_toFields h hfree hlinks
    exact ⟨_, r, Site.decode_json hkeeps, hr, hsite⟩
  | yaml =>
    obtain ⟨read, hread, hrestates⟩ := Site.decode_yaml h hkeeps.2 hkeeps.1
    obtain ⟨r, hr, hsite⟩ := build_of_restates h.filled hfree hlinks.filled hrestates
    exact ⟨read, r, hread, hr, hsite⟩
  | toml =>
    obtain ⟨read, hread, hrestates⟩ := site.decode_toml
    obtain ⟨r, hr, hsite⟩ := build_of_restates h hfree hlinks hrestates
    exact ⟨read, r, hread, hr, hsite⟩

theorem Format.kept_eq_self_iff {site : Site} {format : Format} :
    format.kept site = site ↔ (format = .yaml → site.Given) := by
  cases format <;> simp [Format.kept, Site.filled_eq_self_iff]

end RoundTrip

/-- A configuration whose links are their own normal forms is built again from its document in
every format that keeps it. It has the same contents then, except that YAML cannot tell what was
never given from what is empty. -/
theorem build_decode_encode_iff {declaration : Fields} {r : Report} (h : build declaration = .ok r)
    (hlinks : r.site.LinksFixed) {format : Format} (hkeeps : format.Keeps r.site) :
    ∃ read r', format.decode (r.site.encode format) = .ok read ∧ build read = .ok r' ∧
      (Json.line (Json.ofFields r'.site.toFields) = Json.line (Json.ofFields r.site.toFields) ↔
        (format = .yaml → r.site.Given)) := by
  obtain ⟨hd, hfree, _⟩ := build_eq_ok_iff.mp h
  obtain ⟨read, r', hread, hr', hsite⟩ :=
    Site.build_decode (hd.wellFormed hfree) hfree hlinks hkeeps
  refine ⟨read, r', hread, hr', ?_⟩
  rw [← Format.kept_eq_self_iff, hsite]
  constructor
  · exact Site.eq_of_line_eq
  · intro hkept
    rw [hkept]

theorem build_decode_encode_menu :
    ∃ r, build [("title", .text "Docs"), ("description", .text "All: of it"),
        ("head", .list [.record [("tagName", .text "meta"),
          ("attributes", .record [("name", .text "theme"),
            ("content", .text "- dark\n- light")])]]),
        ("themeConfig", .record [
          ("nav", .list [.record [("text", .text "Guide"),
            ("items", .list [.record [("text", .text "Start"), ("link", .text "/start")]])]]),
          ("sidebar", .list []), ("socialLinks", .list [])])] = .ok r ∧
      r.site.LinksFixed ∧ Format.yaml.Keeps r.site ∧ r.site.Given ∧
      ∃ read r', Format.yaml.decode (r.site.encode .yaml) = .ok read ∧ build read = .ok r' ∧
        (Json.line (Json.ofFields r'.site.toFields) = Json.line (Json.ofFields r.site.toFields) ↔
          (Format.yaml = .yaml → r.site.Given)) := by
  refine ⟨⟨⟨"Docs", "All: of it", "en-US",
    some [⟨"meta", some ⟨[("content", "- dark\n- light"), ("name", "theme")], by decide⟩⟩],
    ⟨"", some [⟨"Guide", "", [⟨"Start", "/start", []⟩]⟩], some [], some [], none, none, none⟩⟩, []⟩,
    ?built, ?links, ?keeps, ?given, build_decode_encode_iff ?built ?links ?keeps⟩
  case built => rfl
  case links =>
    refine ⟨nofun, ?_, ?_, ?_⟩
    · rintro _ ⟨⟩ item hitem hlink
      cases hitem with
      | top h =>
        obtain rfl := List.mem_singleton.mp h
        exact absurd rfl hlink
      | inside h hitem =>
        obtain rfl := List.mem_singleton.mp h
        cases hitem with
        | top h =>
          obtain rfl := List.mem_singleton.mp h
          decide +kernel
        | inside h hitem =>
          obtain rfl := List.mem_singleton.mp h
          exact absurd hitem (NavItem.not_within_nil _)
    · rintro _ ⟨⟩
      decide
    · rintro _ ⟨⟩ tag htag attributes hattributes
      obtain rfl := List.mem_singleton.mp htag
      obtain rfl := Option.some.inj hattributes
      decide +kernel
  case keeps =>
    refine ⟨by decide, ?_, nofun⟩
    rintro _ ⟨⟩ tag htag m hm
    obtain rfl := List.mem_singleton.mp htag
    obtain rfl := Option.some.inj hm
    rw [TextMap.Kept]
    decide +kernel
  case given =>
    refine ⟨rfl, ?_, rfl, rfl, rfl⟩
    rintro _ ⟨⟩
    decide

theorem decode_encode_fills_lists :
    ∃ r, build [("title", .text "Docs"), ("description", .text "All")] = .ok r ∧ r.site.LinksFixed ∧
      ∃ read r', Format.yaml.decode (r.site.encode .yaml) = .ok read ∧ build read = .ok r' ∧
        Json.line (Json.ofFields r'.site.toFields) ≠ Json.line (Json.ofFields r.site.toFields) := by
  have hbuilt : build [("title", .text "Docs"), ("description", .text "All")] =
    .ok ⟨⟨"Docs", "All", "en-US", none, .empty⟩, []⟩ := rfl
  have hlinks : Site.LinksFixed ⟨"Docs", "All", "en-US", none, .empty⟩ :=
    ⟨nofun, nofun, nofun, nofun⟩
  obtain ⟨read, r', hread, hr', hsite⟩ := Site.build_decode (wellFormed_of_build hbuilt) .nil hlinks
    (show Format.yaml.Keeps _ from ⟨by decide, nofun, nofun⟩)
  refine ⟨_, hbuilt, hlinks, read, r', hread, hr', fun hline => ?_⟩
  have hhead := congrArg Site.head (hsite.symm.trans (Site.eq_of_line_eq hline))
  cases hhead

end DocSite
