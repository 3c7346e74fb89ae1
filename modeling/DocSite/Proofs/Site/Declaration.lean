import DocSite.Proofs.Json.Value
import DocSite.Proofs.TextMap
import DocSite.Proofs.Value
import DocSite.Site.Declaration
import DocSite.Schema.Build

namespace DocSite

namespace Fields

@[simp] theorem get?_nil (key : String) : Fields.get? [] key = none := rfl

@[simp] theorem get?_cons (f : String × Value) (r : Fields) (key : String) :
    Fields.get? (f :: r) key = if key = f.1 then some f.2 else Fields.get? r key :=
  Text.lookup_cons key f r

@[simp] theorem get?_append (a b : Fields) (key : String) :
    Fields.get? (a ++ b) key = (Fields.get? a key).or (Fields.get? b key) := by
  rw [get?, get?, get?, List.lookup_append]

@[simp] theorem get?_unlessEmpty (k s key : String) :
    Fields.get? (unlessEmpty k s) key =
      if key = k ∧ s ≠ "" then some (.text s) else none := by
  by_cases hs : s = "" <;> simp [unlessEmpty, hs]

@[simp] theorem get?_whenSome (k : String) (v : Option Value) (key : String) :
    Fields.get? (whenSome k v) key = if key = k then v else none := by
  cases v <;> simp [whenSome]

@[simp] theorem get?_unless (p : Prop) [Decidable p] (f : String × Value) (key : String) :
    Fields.get? (if p then [] else [f]) key = if key = f.1 ∧ ¬p then some f.2 else none := by
  by_cases hp : p <;> simp [hp]

end Fields

theorem filter_map_not_null {write : α → Value} (h : ∀ a, (write a).isNull = false)
    (o : Option α) : ((o.map write).filter fun v => !v.isNull) = o.map write := by
  cases o <;> simp [Option.filter_some, h]

section Sections

variable (theme : Theme)

theorem Theme.given?_search_toFields :
    theme.toFields.given? "search" = theme.search.map Search.toValue := by
  rw [← filter_map_not_null (fun _ => rfl)]
  simp [Theme.toFields, Fields.given?]

theorem Theme.given?_footer_toFields :
    theme.toFields.given? "footer" = theme.footer.map Footer.toValue := by
  rw [← filter_map_not_null (fun _ => rfl)]
  simp [Theme.toFields, Fields.given?]

theorem Theme.given?_lastUpdated_toFields :
    theme.toFields.given? "lastUpdated" = theme.lastUpdated.map LastUpdated.toValue := by
  rw [← filter_map_not_null (fun _ => rfl)]
  simp [Theme.toFields, Fields.given?]

end Sections

@[elab_as_elim, induction_eliminator]
theorem NavItem.ind {motive : NavItem → Prop}
    (mk : ∀ text link items, (∀ item ∈ items, motive item) → motive ⟨text, link, items⟩) :
    ∀ item, motive item
  | ⟨text, link, items⟩ => mk text link items fun item _ => NavItem.ind mk item
decreasing_by
  have := List.sizeOf_lt_of_mem (by assumption : item ∈ items)
  simp_wf
  omega

theorem NavItem.toValue_mk (text link : String) (items : List NavItem) :
    NavItem.toValue ⟨text, link, items⟩ =
      .record (("text", .text text) :: unlessEmpty "link" link ++
        if items.isEmpty then [] else [("items", .list (items.map NavItem.toValue))]) := by
  rw [NavItem.toValue, NavItem.toValues_eq_map]

section Plain

theorem sublist_unlessEmpty (key s : String) :
    ((unlessEmpty key s).map (·.1)).Sublist [key] := by
  by_cases h : s = "" <;> simp [unlessEmpty, h]

theorem sublist_whenSome (key : String) (v : Option Value) :
    ((whenSome key v).map (·.1)).Sublist [key] := by
  cases v <;> simp [whenSome]

theorem plain_unlessEmpty (key s : String) : ∀ f ∈ unlessEmpty key s, f.2.Plain := by
  by_cases h : s = ""
  · simp [unlessEmpty, h]
  · simp [unlessEmpty, h]

theorem plain_whenSome (key : String) {v : Option Value} (h : ∀ w ∈ v, w.Plain) :
    ∀ f ∈ whenSome key v, f.2.Plain := by
  cases v with
  | none => simp [whenSome]
  | some w => simpa [whenSome] using h w rfl

theorem plain_listOrNull {write : α → Value} (h : ∀ a, (write a).Plain) (l : Option (List α)) :
    (listOrNull write l).Plain := by
  cases l with
  | none => exact .null
  | some l =>
    apply Value.Plain.list
    intro v hv
    obtain ⟨a, _, rfl⟩ := List.mem_map.mp hv
    exact h a

theorem TextMap.plain_toValue (m : TextMap) : m.toValue.Plain := by
  have hkeys : m.entries.Pairwise fun a b => a.1 ≠ b.1 := m.ascending.imp Text.ne_of_before
  apply Value.Plain.record
  · rw [List.map_map]
    exact List.pairwise_map.mpr hkeys
  · intro f hf
    obtain ⟨e, _, rfl⟩ := List.mem_map.mp hf
    exact .text e.2

theorem HeadTag.plain_toValue (tag : HeadTag) : tag.toValue.Plain := by
  have hattributes : ((tag.attributes.map TextMap.toValue).getD .null).Plain := by
    cases tag.attributes with
    | none => exact .null
    | some m => exact m.plain_toValue
  exact .record (by simp) (by simp [hattributes])

theorem NavItem.plain_toValue (item : NavItem) : item.toValue.Plain := by
  induction item with
  | mk text link items ih =>
    have hitems : (Value.list (items.map NavItem.toValue)).Plain := by
      apply Value.Plain.list
      intro v hv
      obtain ⟨item, hitem, rfl⟩ := List.mem_map.mp hv
      exact ih item hitem
    rw [NavItem.toValue_mk]
    by_cases hlink : link = "" <;> cases hempty : items.isEmpty <;>
      exact .record (by simp [unlessEmpty, hlink]) (by simp [unlessEmpty, hlink, hitems])

theorem SidebarItem.plain_toValue (item : SidebarItem) : item.toValue.Plain :=
  .record (by simp) (by simp)

theorem SidebarGroup.plain_toValue (group : SidebarGroup) : group.toValue.Plain := by
  have hitems : (Value.list (group.items.map SidebarItem.toValue)).Plain := by
    apply Value.Plain.list
    intro v hv
    obtain ⟨item, _, rfl⟩ := List.mem_map.mp hv
    exact item.plain_toValue
  rw [SidebarGroup.toValue]
  by_cases hlink : group.link = "" <;> cases group.collapsed <;> cases group.items.isEmpty <;>
    exact .record (by simp [unlessEmpty, whenSome, hlink])
      (by simp [unlessEmpty, whenSome, hlink, hitems])

theorem SocialLink.plain_toValue (link : SocialLink) : link.toValue.Plain :=
  .record (by simp) (by simp)

theorem Search.plain_toValue (search : Search) : search.toValue.Plain := by
  rw [Search.toValue]
  cases search.options.isEmpty <;>
    exact .record (by simp) (by simp [search.options.plain_toValue])

theorem Footer.plain_toValue (footer : Footer) : footer.toValue.Plain := by
  rw [Footer.toValue]
  by_cases hm : footer.message = "" <;> by_cases hc : footer.copyright = "" <;>
    exact .record (by simp [unlessEmpty, hm, hc]) (by simp [unlessEmpty, hm, hc])

theorem LastUpdated.plain_toValue (stamp : LastUpdated) : stamp.toValue.Plain := by
  have hformat : (Value.record [("dateStyle", .text stamp.dateStyle),
      ("timeStyle", .text stamp.timeStyle)]).Plain := .record (by simp) (by simp)
  exact .record (by simp) (by simp [hformat])

theorem Theme.keys_toFields (theme : Theme) :
    (theme.toFields.map (·.1)).Sublist Schema.themeKeys := by
  simp only [Theme.toFields, List.map_append]
  exact ((((sublist_unlessEmpty _ _).append (.refl _)).append (sublist_whenSome _ _)).append
    (sublist_whenSome _ _)).append (sublist_whenSome _ _)

theorem Site.keys_toFields (site : Site) :
    (site.toFields.map (·.1)).Sublist Schema.siteKeys := by
  simp only [Site.toFields, List.map_append]
  exact ((List.Sublist.refl _).append (sublist_unlessEmpty _ _)).append (.refl _)

theorem plain_map_toValue {write : α → Value} (h : ∀ a, (write a).Plain) (o : Option α) :
    ∀ w ∈ o.map write, w.Plain := by
  intro w hw
  obtain ⟨a, _, rfl⟩ := Option.map_eq_some_iff.mp hw
  exact h a

theorem Theme.plain_toFields (theme : Theme) : (Value.record theme.toFields).Plain := by
  refine .record (theme.keys_toFields.nodup (by decide)) ?_
  simp only [Theme.toFields, List.forall_mem_append]
  refine ⟨⟨⟨⟨plain_unlessEmpty _ _, ?_⟩, ?_⟩, ?_⟩, ?_⟩
  · simp [plain_listOrNull NavItem.plain_toValue, plain_listOrNull SidebarGroup.plain_toValue,
      plain_listOrNull SocialLink.plain_toValue]
  · exact plain_whenSome _ (plain_map_toValue Search.plain_toValue _)
  · exact plain_whenSome _ (plain_map_toValue Footer.plain_toValue _)
  · exact plain_whenSome _ (plain_map_toValue LastUpdated.plain_toValue _)

theorem Site.plain_toFields (site : Site) : (Value.record site.toFields).Plain := by
  refine .record (site.keys_toFields.nodup (by decide)) ?_
  simp only [Site.toFields, List.forall_mem_append]
  refine ⟨⟨by simp, plain_unlessEmpty _ _⟩, ?_⟩
  simp [plain_listOrNull HeadTag.plain_toValue, site.theme.plain_toFields]

end Plain

section Injective

theorem Value.record_injective : Function.Injective Value.record := by
  intro a b h
  have hfields := congrArg Value.fields? h
  rwa [Value.fields?_record, Value.fields?_record, Option.some.injEq] at hfields

theorem Value.list_injective : Function.Injective Value.list := by
  intro a b h
  simpa using h

theorem listOrNull_injective {write : α → Value} (h : Function.Injective write) :
    Function.Injective (listOrNull write) := by
  intro a b hab
  cases a with
  | none =>
    cases b with
    | none => rfl
    | some b => cases hab
  | some a =>
    cases b with
    | none => cases hab
    | some b => exact congrArg some (List.map_injective_iff.mpr h (Value.list_injective hab))

theorem eq_of_unless {f : α → Value} {a b e : α} [Decidable (a = e)] [Decidable (b = e)]
    (hf : f a = f b → a = b)
    (h : (if a = e then none else some (f a)) = if b = e then none else some (f b)) : a = b := by
  by_cases ha : a = e <;> by_cases hb : b = e <;> simp_all

theorem eq_of_map_eq_map {f : α → β} {l l' : List α} (hf : ∀ a ∈ l, ∀ b, f a = f b → a = b)
    (h : l.map f = l'.map f) : l = l' := by
  induction l generalizing l' with
  | nil => simpa using h.symm
  | cons a r ih =>
    rw [List.forall_mem_cons] at hf
    cases l' with
    | nil => cases h
    | cons b r' =>
      obtain ⟨hab, hr⟩ := List.cons.inj h
      rw [hf.1 b hab, ih hf.2 hr]

theorem TextMap.toValue_injective : Function.Injective TextMap.toValue := by
  intro a b h
  have hentries := Value.record_injective h
  have hmap : Function.Injective fun e : String × String => (e.1, Value.text e.2) := by
    intro e e' he
    simpa [Prod.ext_iff] using he
  obtain ⟨_, _⟩ := a
  obtain ⟨_, _⟩ := b
  simpa using List.map_injective_iff.mpr hmap hentries

theorem HeadTag.toValue_injective : Function.Injective HeadTag.toValue := by
  rintro ⟨name, attributes⟩ ⟨name', attributes'⟩ h
  have hfields := Value.record_injective h
  simp only [List.cons.injEq, Prod.mk.injEq, true_and, and_true] at hfields
  obtain ⟨hname, hattributes⟩ := hfields
  obtain rfl : name = name' := by simpa using hname
  cases attributes with
  | none =>
    cases attributes' with
    | none => rfl
    | some m => cases hattributes
  | some m =>
    cases attributes' with
    | none => cases hattributes
    | some m' => rw [TextMap.toValue_injective hattributes]

theorem Value.text_injective : Function.Injective Value.text := by
  intro a b h
  simpa using h

theorem Value.bool_injective : Function.Injective Value.bool := by
  intro a b h
  simpa using h

theorem eq_of_unless_empty {s t : String}
    (h : (if s = "" then none else some (Value.text s)) =
      if t = "" then none else some (.text t)) : s = t :=
  eq_of_unless (fun h => Value.text_injective h) h

theorem NavItem.toValue_injective : Function.Injective NavItem.toValue := by
  intro a b h
  induction a generalizing b with
  | mk text link items ih =>
    obtain ⟨text', link', items'⟩ := b
    rw [NavItem.toValue_mk, NavItem.toValue_mk] at h
    have hget := fun key => congrArg (Fields.get? · key) (Value.record_injective h)
    have htext : text = text' := by simpa using hget "text"
    have hlink : link = link' := by
      apply eq_of_unless_empty
      simpa using hget "link"
    have hitems : items = items' := by
      apply eq_of_unless (f := fun l => .list (l.map NavItem.toValue)) (e := [])
        (fun h => eq_of_map_eq_map (fun i hi _ => @ih i hi _) (Value.list_injective h))
      simpa using hget "items"
    rw [htext, hlink, hitems]

theorem SidebarItem.toValue_injective : Function.Injective SidebarItem.toValue := by
  rintro ⟨text, link⟩ ⟨text', link'⟩ h
  simpa using Value.record_injective h

theorem SidebarGroup.toValue_injective : Function.Injective SidebarGroup.toValue := by
  rintro ⟨text, link, collapsed, items⟩ ⟨text', link', collapsed', items'⟩ h
  have hget := fun key => congrArg (Fields.get? · key) (Value.record_injective h)
  have htext : text = text' := by simpa using hget "text"
  have hlink : link = link' := by
    apply eq_of_unless_empty
    simpa using hget "link"
  have hcollapsed : collapsed = collapsed' := by
    apply Option.map_injective Value.bool_injective
    simpa using hget "collapsed"
  have hitems : items = items' := by
    apply eq_of_unless (f := fun l => .list (l.map SidebarItem.toValue)) (e := [])
      (fun h => List.map_injective_iff.mpr SidebarItem.toValue_injective (Value.list_injective h))
    simpa using hget "items"
  rw [htext, hlink, hcollapsed, hitems]

theorem SocialLink.toValue_injective : Function.Injective SocialLink.toValue := by
  rintro ⟨icon, link⟩ ⟨icon', link'⟩ h
  simpa using Value.record_injective h

theorem Search.toValue_injective : Function.Injective Search.toValue := by
  rintro ⟨provider, options⟩ ⟨provider', options'⟩ h
  have hget := fun key => congrArg (Fields.get? · key) (Value.record_injective h)
  have hprovider : provider = provider' := by simpa using hget "provider"
  have hoptions : options = options' := by
    apply eq_of_unless (e := .empty) (fun h => TextMap.toValue_injective h)
    simpa [TextMap.isEmpty_iff] using hget "options"
  rw [hprovider, hoptions]

theorem Footer.toValue_injective : Function.Injective Footer.toValue := by
  rintro ⟨message, copyright⟩ ⟨message', copyright'⟩ h
  have hget := fun key => congrArg (Fields.get? · key) (Value.record_injective h)
  have hmessage : message = message' := by
    apply eq_of_unless_empty
    simpa using hget "message"
  have hcopyright : copyright = copyright' := by
    apply eq_of_unless_empty
    simpa using hget "copyright"
  rw [hmessage, hcopyright]

theorem LastUpdated.toValue_injective : Function.Injective LastUpdated.toValue := by
  rintro ⟨text, dateStyle, timeStyle⟩ ⟨text', dateStyle', timeStyle'⟩ h
  have hfields := Value.record_injective h
  simp only [List.cons.injEq, Prod.mk.injEq, true_and, and_true] at hfields
  have hformat := Value.record_injective hfields.2
  simp only [List.cons.injEq, Prod.mk.injEq, true_and, and_true] at hformat
  rw [Value.text_injective hfields.1, Value.text_injective hformat.1,
    Value.text_injective hformat.2]

theorem Theme.toFields_injective : Function.Injective Theme.toFields := by
  rintro ⟨logo, nav, sidebar, socialLinks, search, footer, stamp⟩
    ⟨logo', nav', sidebar', socialLinks', search', footer', stamp'⟩ h
  have hget := fun key => congrArg (Fields.get? · key) h
  have hlogo : logo = logo' := by
    apply eq_of_unless_empty
    simpa [Theme.toFields] using hget "logo"
  have hnav : nav = nav' := by
    apply listOrNull_injective NavItem.toValue_injective
    simpa [Theme.toFields] using hget "nav"
  have hsidebar : sidebar = sidebar' := by
    apply listOrNull_injective SidebarGroup.toValue_injective
    simpa [Theme.toFields] using hget "sidebar"
  have hsocial : socialLinks = socialLinks' := by
    apply listOrNull_injective SocialLink.toValue_injective
    simpa [Theme.toFields] using hget "socialLinks"
  have hsearch : search = search' := by
    apply Option.map_injective Search.toValue_injective
    simpa [Theme.toFields] using hget "search"
  have hfooter : footer = footer' := by
    apply Option.map_injective Footer.toValue_injective
    simpa [Theme.toFields] using hget "footer"
  have hstamp : stamp = stamp' := by
    apply Option.map_injective LastUpdated.toValue_injective
    simpa [Theme.toFields] using hget "lastUpdated"
  rw [hlogo, hnav, hsidebar, hsocial, hsearch, hfooter, hstamp]

theorem Site.toFields_injective : Function.Injective Site.toFields := by
  rintro ⟨title, description, lang, head, theme⟩ ⟨title', description', lang', head', theme'⟩ h
  have hget := fun key => congrArg (Fields.get? · key) h
  have htitle : title = title' := by simpa [Site.toFields] using hget "title"
  have hdescription : description = description' := by
    simpa [Site.toFields] using hget "description"
  have hlang : lang = lang' := by
    apply eq_of_unless_empty
    simpa [Site.toFields] using hget "lang"
  have hhead : head = head' := by
    apply listOrNull_injective HeadTag.toValue_injective
    simpa [Site.toFields] using hget "head"
  have htheme : theme = theme' := by
    apply Theme.toFields_injective
    apply Value.record_injective
    simpa [Site.toFields] using hget "themeConfig"
  rw [htitle, hdescription, hlang, hhead, htheme]

end Injective

end DocSite
