import DocSite.Proofs.Settings.Layer
import DocSite.Proofs.Text.Trim

namespace DocSite.Settings

def ReadsAs (read : String → Except ε α) (text : Option String) (v : α) : Prop :=
  ∃ s, text = some s ∧ s ≠ "" ∧ read s = .ok v

def Legible (read : String → Except ε α) (text : Option String) : Prop :=
  ∀ s, text = some s → s ≠ "" → ∃ v, read s = .ok v

def Overrides.Sets (overrides : Overrides) : Source
  | .port, s => overrides.port = some s ∧ s ≠ ""
  | .declaration, s => overrides.declaration = some s ∧ s ≠ ""
  | .watch, b => overrides.watch = some b
  | .reloadStrategy, s => overrides.reloadStrategy = some s ∧ s ≠ ""
  | .logLevel, s => overrides.logLevel = some s ∧ s ≠ ""
  | .rate, x => overrides.rate = some x ∧ x.isNonNegative = true
  | .burst, i => overrides.burst = some i ∧ 0 ≤ i
  | _, _ => False

namespace Document

/-- A document sets texts that are not empty, truth values, durations by texts that are not empty,
any numbers for the limits of requests, and positive sizes. -/
def Sets (document : Document) : Source
  | .port, s => document.port = some s ∧ s ≠ ""
  | .declaration, s => document.declaration = some s ∧ s ≠ ""
  | .watch, b => document.watch = some b
  | .watchDebounce, d => ReadsAs Duration.read document.watchDebounce d
  | .reloadStrategy, s => document.reloadStrategy = some s ∧ s ≠ ""
  | .logLevel, s => document.logLevel = some s ∧ s ≠ ""
  | .shutdownGracePeriod, d => ReadsAs Duration.read document.shutdownGracePeriod d
  | .readHeaderTimeout, d => ReadsAs Duration.read document.readHeaderTimeout d
  | .writeTimeout, d => ReadsAs Duration.read document.writeTimeout d
  | .idleTimeout, d => ReadsAs Duration.read document.idleTimeout d
  | .requestLogging, b => document.requestLogging = some b
  | .maxBodyBytes, i => document.maxBodyBytes = some i ∧ 0 < i
  | .rate, x => document.rate = some x
  | .burst, i => document.burst = some i

structure DurationsLegible (document : Document) : Prop where
  watchDebounce : Legible Duration.read document.watchDebounce
  shutdownGracePeriod : Legible Duration.read document.shutdownGracePeriod
  readHeaderTimeout : Legible Duration.read document.readHeaderTimeout
  writeTimeout : Legible Duration.read document.writeTimeout
  idleTimeout : Legible Duration.read document.idleTimeout

end Document

namespace Environment

def SetsText (env : Environment) (name s : String) : Prop :=
  ∃ text, env.lookup name = some text ∧ Text.trim text = s ∧ s ≠ ""

def Sets (env : Environment) : Source
  | .port, s => env.SetsText "PORT" s
  | .declaration, s => env.SetsText "SITECONFIG_DECLARATION" s
  | .watch, b => ReadsAs readBool (env.lookup "SITECONFIG_WATCH") b
  | .watchDebounce, d => ReadsAs Duration.read (env.lookup "SITECONFIG_WATCH_DEBOUNCE") d
  | .reloadStrategy, s => env.SetsText "SITECONFIG_RELOAD_STRATEGY" s
  | .logLevel, s => env.SetsText "LOG_LEVEL" s
  | .rate, x => ReadsAs readFloat (env.lookup "RATE_LIMIT_RPS") x
  | .burst, i => ReadsAs readInt (env.lookup "RATE_LIMIT_BURST") i
  | _, _ => False

structure AllLegible (env : Environment) : Prop where
  watch : Legible readBool (env.lookup "SITECONFIG_WATCH")
  watchDebounce : Legible Duration.read (env.lookup "SITECONFIG_WATCH_DEBOUNCE")
  rate : Legible readFloat (env.lookup "RATE_LIMIT_RPS")
  burst : Legible readInt (env.lookup "RATE_LIMIT_BURST")

end Environment

structure Sound (s : Settings) : Prop where
  rate : s.rate.isNegative = false
  burst : 0 ≤ s.burst
  declaration : Text.trim s.declaration ≠ ""
  reloadStrategy : s.reloadStrategy = "replace" ∨ s.reloadStrategy = "reconcile"
  watchDebounce : 0 ≤ s.watchDebounce.nanoseconds

structure Origin where
  env : Environment
  files : Files
  here : Path.Place
  overrides : Overrides

namespace Origin

def load (origin : Origin) : Except Refusal Settings :=
  Settings.load origin.env origin.files origin.here origin.overrides

def Gives (origin : Origin) (document : Document) : Prop :=
  (origin.overrides.document = "" ∧ document = {}) ∨
    origin.overrides.document ≠ "" ∧
      ∃ text, origin.files.read origin.here origin.overrides.document = .ok text ∧
        Document.parse? text = some document

def sources (origin : Origin) (document : Document) : List Source :=
  [origin.overrides.Sets, document.Sets, origin.env.Sets, .default]

end Origin

section Texts

variable {text : Option String} {s : String}

theorem given_eq_some_iff : given text = some s ↔ text = some s ∧ s ≠ "" := by
  simp [given, Option.filter_eq_some_iff]

theorem trimmed_eq_some_iff :
    trimmed text = some s ↔ ∃ t, text = some t ∧ Text.trim t = s ∧ s ≠ "" := by
  rw [trimmed, given_eq_some_iff, Option.map_eq_some_iff]
  simp only [← and_assoc, exists_and_right]

variable {read : String → Except ε α}

theorem readsAs_iff {v : α} : ReadsAs read text v ↔ ∃ s, given text = some s ∧ read s = .ok v := by
  simp only [given_eq_some_iff, and_assoc]
  rfl

theorem legible_iff : Legible read text ↔ ∀ s, given text = some s → ∃ v, read s = .ok v := by
  simp only [given_eq_some_iff, and_imp]
  rfl

theorem mapError_eq_ok_iff {x : Except ε α} {g : ε → δ} {v : α} :
    x.mapError g = .ok v ↔ x = .ok v := by
  cases x <;> simp [Except.mapError]

theorem readDuration_eq_ok_iff {d : Duration} : readDuration s = .ok d ↔ Duration.read s = .ok d :=
  mapError_eq_ok_iff

theorem readsAs_readDuration_iff {d : Duration} :
    ReadsAs readDuration text d ↔ ReadsAs Duration.read text d := by
  simp only [ReadsAs, readDuration_eq_ok_iff]

theorem legible_readDuration_iff : Legible readDuration text ↔ Legible Duration.read text := by
  simp only [Legible, readDuration_eq_ok_iff]

end Texts

theorem Overrides.tells_layer (overrides : Overrides) : overrides.layer.Tells overrides.Sets := by
  intro f v
  cases f <;>
    simp [Field.get?, Overrides.layer, Overrides.Sets, given_eq_some_iff, Option.filter_eq_some_iff]

namespace Environment

variable (env : Environment)

section Reading

variable {read : String → Except String α} (name setting kind : String)

theorem join_reading {v : α} : (env.reading name setting kind read).toOption.join = some v ↔
    ReadsAs read (env.lookup name) v := by
  rw [readsAs_iff, reading, value?]
  cases given (env.lookup name) with
  | none => simp [Except.toOption]
  | some s => cases h : read s <;> simp [Except.toOption, h]

theorem exists_reading_eq_ok : (∃ o, env.reading name setting kind read = .ok o) ↔
    Legible read (env.lookup name) := by
  rw [legible_iff, reading, value?]
  cases given (env.lookup name) with
  | none => simp
  | some s => cases h : read s <;> simp [h]

end Reading

theorem tells_layer : env.layer.Tells env.Sets := by
  intro f v
  cases f with
  | port | declaration | reloadStrategy | logLevel => exact trimmed_eq_some_iff
  | watch | rate | burst => exact env.join_reading _ _ _
  | watchDebounce => exact (env.join_reading _ _ _).trans readsAs_readDuration_iff
  | _ => simp [Field.get?, layer, Sets]

theorem problem_eq_nil_iff {x : Except Misread α} :
    (match x with
      | .ok _ => ([] : List Misread)
      | .error m => [m]) = [] ↔ ∃ o, x = .ok o := by
  cases x <;> simp

theorem misread_eq_nil_iff : env.misread = [] ↔ env.AllLegible := by
  rw [misread]
  simp only [List.append_eq_nil_iff, and_assoc]
  constructor
  · rintro ⟨hwatch, hdebounce, hrate, hburst⟩
    exact ⟨(env.exists_reading_eq_ok _ _ _).mp (problem_eq_nil_iff.mp hwatch),
      legible_readDuration_iff.mp
        ((env.exists_reading_eq_ok _ _ _).mp (problem_eq_nil_iff.mp hdebounce)),
      (env.exists_reading_eq_ok _ _ _).mp (problem_eq_nil_iff.mp hrate),
      (env.exists_reading_eq_ok _ _ _).mp (problem_eq_nil_iff.mp hburst)⟩
  · intro h
    exact ⟨problem_eq_nil_iff.mpr ((env.exists_reading_eq_ok _ _ _).mpr h.watch),
      problem_eq_nil_iff.mpr
        ((env.exists_reading_eq_ok _ _ _).mpr (legible_readDuration_iff.mpr h.watchDebounce)),
      problem_eq_nil_iff.mpr ((env.exists_reading_eq_ok _ _ _).mpr h.rate),
      problem_eq_nil_iff.mpr ((env.exists_reading_eq_ok _ _ _).mpr h.burst)⟩

end Environment

namespace Document

variable {text : Option String} {document : Document}

theorem exists_readDuration_eq_ok (h : Legible Duration.read text) (name : String) :
    ∃ o, readDuration name text = .ok o ∧ ∀ d, o = some d ↔ ReadsAs Duration.read text d := by
  simp only [readsAs_iff]
  rw [readDuration]
  cases hgiven : given text with
  | none => exact ⟨none, rfl, by simp⟩
  | some s =>
    obtain ⟨d, hd⟩ := legible_iff.mp h s hgiven
    exact ⟨some d, by simp [hd], by simp [hd, eq_comm]⟩

theorem legible_of_readDuration {name : String} {o : Option Duration}
    (h : readDuration name text = .ok o) : Legible Duration.read text := by
  rw [legible_iff]
  intro s hgiven
  rw [readDuration, hgiven] at h
  cases hread : Duration.read s with
  | ok d => exact ⟨d, rfl⟩
  | error fault => simp [hread] at h

theorem exists_layer_eq_ok (h : document.DurationsLegible) :
    ∃ layer, document.layer = .ok layer ∧ layer.Tells document.Sets := by
  obtain ⟨watchDebounce, hwatch, hwatch'⟩ :=
    exists_readDuration_eq_ok h.watchDebounce "watch_debounce"
  obtain ⟨grace, hgrace, hgrace'⟩ :=
    exists_readDuration_eq_ok h.shutdownGracePeriod "shutdown_grace_period"
  obtain ⟨header, hheader, hheader'⟩ :=
    exists_readDuration_eq_ok h.readHeaderTimeout "read_header_timeout"
  obtain ⟨write, hwrite, hwrite'⟩ := exists_readDuration_eq_ok h.writeTimeout "write_timeout"
  obtain ⟨idle, hidle, hidle'⟩ := exists_readDuration_eq_ok h.idleTimeout "idle_timeout"
  refine ⟨_, by rw [layer, hwatch, hgrace, hheader, hwrite, hidle]; rfl, fun f v => ?_⟩
  cases f with
  | port | declaration | reloadStrategy | logLevel => exact given_eq_some_iff
  | watchDebounce => exact hwatch' v
  | shutdownGracePeriod => exact hgrace' v
  | readHeaderTimeout => exact hheader' v
  | writeTimeout => exact hwrite' v
  | idleTimeout => exact hidle' v
  | maxBodyBytes => simp [Field.get?, Sets, Option.filter_eq_some_iff]
  | watch | requestLogging | rate | burst => exact Iff.rfl

theorem exists_of_bind_eq_ok {x : Except ε α} {f : α → Except ε β} {b : β} (h : x >>= f = .ok b) :
    ∃ a, x = .ok a ∧ f a = .ok b := by
  cases x with
  | ok a => exact ⟨a, rfl, h⟩
  | error _ => cases h

theorem durationsLegible_of_layer {layer : Layer} (h : document.layer = .ok layer) :
    document.DurationsLegible := by
  obtain ⟨_, hwatch, h⟩ := exists_of_bind_eq_ok h
  obtain ⟨_, hgrace, h⟩ := exists_of_bind_eq_ok h
  obtain ⟨_, hheader, h⟩ := exists_of_bind_eq_ok h
  obtain ⟨_, hwrite, h⟩ := exists_of_bind_eq_ok h
  obtain ⟨_, hidle, _⟩ := exists_of_bind_eq_ok h
  exact ⟨legible_of_readDuration hwatch, legible_of_readDuration hgrace,
    legible_of_readDuration hheader, legible_of_readDuration hwrite, legible_of_readDuration hidle⟩

end Document

theorem ite_some_eq_none_iff {p : Prop} [Decidable p] {a : α} {o : Option α} :
    (if p then some a else o) = none ↔ ¬p ∧ o = none := by
  split <;> simp_all

theorem flaw?_eq_none_iff {s : Settings} : s.flaw? = none ↔ s.Sound := by
  simp only [flaw?, ite_some_eq_none_iff, and_true, Bool.not_eq_true]
  constructor
  · rintro ⟨hrate, hburst, hblank, hstrategy, hdebounce⟩
    refine ⟨hrate, Int.not_lt.mp hburst, by simp [Text.trim_eq_empty_iff, hblank], ?_,
      Int.not_lt.mp hdebounce⟩
    exact (Decidable.not_and_iff_not_or_not.mp hstrategy).imp Decidable.of_not_not
      Decidable.of_not_not
  · intro h
    refine ⟨h.rate, Int.not_lt.mpr h.burst, ?_, fun hne => h.reloadStrategy.elim hne.1 hne.2,
      Int.not_lt.mpr h.watchDebounce⟩
    simpa [Text.trim_eq_empty_iff] using h.declaration

namespace Origin

variable {origin : Origin} {document : Document}

def documentLayer (origin : Origin) : Except Fault Layer :=
  if origin.overrides.document = "" then .ok {}
  else Settings.documentLayer origin.files origin.here origin.overrides.document

theorem Gives.unique {other : Document} (h : origin.Gives document) (h' : origin.Gives other) :
    document = other := by
  rcases h with ⟨hnone, rfl⟩ | ⟨hsome, text, hread, hparse⟩
  · rcases h' with ⟨_, rfl⟩ | ⟨hsome, _⟩
    · rfl
    · exact absurd hnone hsome
  · rcases h' with ⟨hnone, _⟩ | ⟨_, text', hread', hparse'⟩
    · exact absurd hnone hsome
    · obtain rfl := Except.ok.inj (hread.symm.trans hread')
      exact Option.some.inj (hparse.symm.trans hparse')

theorem Gives.documentLayer_eq_ok_iff (h : origin.Gives document) {layer : Layer} :
    origin.documentLayer = .ok layer ↔ document.layer = .ok layer := by
  rw [documentLayer]
  rcases h with ⟨hnone, rfl⟩ | ⟨hsome, text, hread, hparse⟩
  · rw [if_pos hnone]
    rfl
  · rw [if_neg hsome, Settings.documentLayer, hread]
    simp only [hparse]
    exact mapError_eq_ok_iff

theorem exists_gives_of_documentLayer {layer : Layer} (h : origin.documentLayer = .ok layer) :
    ∃ document, origin.Gives document := by
  rw [documentLayer] at h
  split at h
  case isTrue hnone => exact ⟨_, .inl ⟨hnone, rfl⟩⟩
  case isFalse hsome =>
    rw [Settings.documentLayer] at h
    split at h
    case h_1 => cases h
    case h_2 text hread =>
      cases hparse : Document.parse? text with
      | none => simp [hparse] at h
      | some document => exact ⟨document, .inr ⟨hsome, text, hread, hparse⟩⟩

theorem load_of_legible (henv : origin.env.AllLegible) (h : origin.Gives document)
    (hdurations : document.DurationsLegible) :
    ∃ s, Resolves (origin.sources document) s ∧
      origin.load =
        match s.flaw? with
        | some flaw => .error (.fault (.plain flaw))
        | none => .ok s := by
  obtain ⟨layer, hlayer, htells⟩ := Document.exists_layer_eq_ok hdurations
  have hdocument := h.documentLayer_eq_ok_iff.mpr hlayer
  refine ⟨origin.overrides.layer.over (layer.over (origin.env.layer.over {})),
    origin.overrides.tells_layer.resolves
      (htells.resolves (origin.env.tells_layer.resolves resolves_default)), ?_⟩
  rw [documentLayer] at hdocument
  rewrite [load, Settings.load, origin.env.misread_eq_nil_iff.mpr henv, hdocument]
  rfl

theorem legible_of_load {s : Settings} (h : origin.load = .ok s) :
    origin.env.AllLegible ∧ ∃ document, origin.Gives document ∧ document.DurationsLegible := by
  rw [load, Settings.load] at h
  split at h
  case h_1 => cases h
  case h_2 hmisread =>
    refine ⟨origin.env.misread_eq_nil_iff.mp hmisread, ?_⟩
    cases hlayer : origin.documentLayer with
    | error cause =>
      rw [documentLayer] at hlayer
      simp [hlayer] at h
    | ok layer =>
      obtain ⟨document, hgives⟩ := exists_gives_of_documentLayer hlayer
      exact ⟨document, hgives,
        Document.durationsLegible_of_layer (hgives.documentLayer_eq_ok_iff.mp hlayer)⟩

theorem load_eq_ok_iff {s : Settings} : origin.load = .ok s ↔
    origin.env.AllLegible ∧ ∃ document, origin.Gives document ∧ document.DurationsLegible ∧
      Resolves (origin.sources document) s ∧ s.Sound := by
  have hdecided : ∀ {document : Document}, origin.env.AllLegible → origin.Gives document →
      document.DurationsLegible →
      (origin.load = .ok s ↔ Resolves (origin.sources document) s ∧ s.Sound) := by
    intro document henv hgives hdurations
    obtain ⟨t, hresolves, hload⟩ := load_of_legible henv hgives hdurations
    rw [hload, ← flaw?_eq_none_iff]
    constructor
    · cases hflaw : t.flaw? with
      | some flaw => simp
      | none =>
        intro h
        obtain rfl := Except.ok.inj h
        exact ⟨hresolves, hflaw⟩
    · rintro ⟨hs, hflaw⟩
      rw [hresolves.unique hs, hflaw]
  constructor
  · intro h
    obtain ⟨henv, document, hgives, hdurations⟩ := legible_of_load h
    exact ⟨henv, document, hgives, hdurations, (hdecided henv hgives hdurations).mp h⟩
  · rintro ⟨henv, document, hgives, hdurations, hs⟩
    exact (hdecided henv hgives hdurations).mpr hs

theorem exists_load_eq_error_iff : (∃ refusal, origin.load = .error refusal) ↔
    ¬origin.env.AllLegible ∨ (¬∃ document, origin.Gives document) ∨
      (∃ document, origin.Gives document ∧ ¬document.DurationsLegible) ∨
      ∃ document s, origin.Gives document ∧ Resolves (origin.sources document) s ∧ ¬s.Sound := by
  constructor
  · rintro ⟨refusal, herror⟩
    by_cases henv : origin.env.AllLegible
    case neg => exact .inl henv
    by_cases hgiven : ∃ document, origin.Gives document
    case neg => exact .inr (.inl hgiven)
    obtain ⟨document, hgives⟩ := hgiven
    by_cases hdurations : document.DurationsLegible
    case neg => exact .inr (.inr (.inl ⟨document, hgives, hdurations⟩))
    obtain ⟨s, hresolves, _⟩ := load_of_legible henv hgives hdurations
    refine .inr (.inr (.inr ⟨document, s, hgives, hresolves, fun hsound => ?_⟩))
    have hok := load_eq_ok_iff.mpr ⟨henv, document, hgives, hdurations, hresolves, hsound⟩
    simp [hok] at herror
  · intro hfails
    cases hload : origin.load with
    | error refusal => exact ⟨refusal, rfl⟩
    | ok s =>
      exfalso
      obtain ⟨henv, document, hgives, hdurations, hresolves, hsound⟩ := load_eq_ok_iff.mp hload
      obtain henv' | hnone | ⟨other, hother, hdurations'⟩ | ⟨other, t, hother, ht, hsound'⟩ :=
        hfails
      · exact henv' henv
      · exact hnone ⟨document, hgives⟩
      · exact hdurations' (hgives.unique hother ▸ hdurations)
      · obtain rfl := hgives.unique hother
        exact hsound' (hresolves.unique ht ▸ hsound)

theorem load_eq_load {other : Origin} {document' : Document} (henv : origin.env.AllLegible)
    (h : origin.Gives document) (hdurations : document.DurationsLegible)
    (henv' : other.env.AllLegible) (h' : other.Gives document')
    (hdurations' : document'.DurationsLegible)
    (hsame : ∀ f v, (∃ k, Decides (origin.sources document) k f v) ↔
      ∃ k, Decides (other.sources document') k f v) : origin.load = other.load := by
  obtain ⟨s, hs, hload⟩ := load_of_legible henv h hdurations
  obtain ⟨t, ht, hload'⟩ := load_of_legible henv' h' hdurations'
  have heq : s = t := hs.unique fun f v => (hsame f v).trans (ht f v)
  rw [hload, hload', heq]

end Origin

/-- Loading fails when the environment cannot be read, when there is no document in the place where
one should be, when a duration in it cannot be read, and when what the sources decide is not right.
Otherwise every field has the value of the highest source that sets it, whatever is below. -/
theorem load_layered :
    (∀ origin : Origin, (∃ refusal, origin.load = .error refusal) ↔
      ¬origin.env.AllLegible ∨ (¬∃ document, origin.Gives document) ∨
        (∃ document, origin.Gives document ∧ ¬document.DurationsLegible) ∨
        ∃ document s, origin.Gives document ∧ Resolves (origin.sources document) s ∧ ¬s.Sound) ∧
    (∀ (origin : Origin) s, origin.load = .ok s →
      ∃ document, origin.Gives document ∧ Resolves (origin.sources document) s) ∧
    (∀ (origin other : Origin) s t document document', origin.load = .ok s → other.load = .ok t →
      origin.Gives document → other.Gives document' → ∀ k f v,
        Decides (origin.sources document) k f v → Decides (other.sources document') k f v →
          f.get s = v ∧ f.get t = v) ∧
    ∀ (origin other : Origin) document document', origin.env.AllLegible → other.env.AllLegible →
      origin.Gives document → other.Gives document' →
      document.DurationsLegible → document'.DurationsLegible →
      (∀ f v, (∃ k, Decides (origin.sources document) k f v) ↔
        ∃ k, Decides (other.sources document') k f v) →
      origin.load = other.load := by
  have hresolves : ∀ {origin : Origin} {s : Settings}, origin.load = .ok s →
      ∃ document, origin.Gives document ∧ Resolves (origin.sources document) s := by
    intro origin s h
    obtain ⟨_, document, hgives, _, hs, _⟩ := Origin.load_eq_ok_iff.mp h
    exact ⟨document, hgives, hs⟩
  refine ⟨fun _ => Origin.exists_load_eq_error_iff, fun _ _ => hresolves, ?_,
    fun _ _ _ _ henv henv' h h' hd hd' => Origin.load_eq_load henv h hd henv' h' hd'⟩
  intro origin other s t document document' hs ht h h' k f v hk hk'
  obtain ⟨same, hgives, hs⟩ := hresolves hs
  obtain ⟨same', hgives', ht⟩ := hresolves ht
  obtain rfl := h.unique hgives
  obtain rfl := h'.unique hgives'
  exact ⟨hs.get_eq hk, ht.get_eq hk'⟩

theorem load_layered_negative_burst :
    let origin : Origin := ⟨[("RATE_LIMIT_BURST", "-3"), ("PORT", " 9090 ")], .empty, [],
      { burst := some 7 }⟩
    let other : Origin := ⟨[], .empty, [], { burst := some 7 }⟩
    origin.load = .ok { port := "9090", burst := 7 } ∧ other.load = .ok { burst := 7 } ∧
      Decides (origin.sources {}) 0 .burst 7 ∧ Decides (other.sources {}) 0 .burst 7 ∧
      Field.get { port := "9090", burst := 7 } .burst = (7 : Int) ∧
      Field.get { burst := 7 } .burst = (7 : Int) := by
  intro origin other
  have hload : origin.load = .ok { port := "9090", burst := 7 } := by
    show Settings.load [("RATE_LIMIT_BURST", "-3"), ("PORT", " 9090 ")] .empty []
      { burst := some 7 } = .ok { port := "9090", burst := 7 }
    rfl
  have hload' : other.load = .ok { burst := 7 } := by
    show Settings.load [] .empty [] { burst := some 7 } = .ok { burst := 7 }
    rfl
  have hdecides : Decides (origin.sources {}) 0 .burst 7 := decides_cons_zero.mpr ⟨rfl, by decide⟩
  have hdecides' : Decides (other.sources {}) 0 .burst 7 := decides_cons_zero.mpr ⟨rfl, by decide⟩
  exact ⟨hload, hload', hdecides, hdecides', load_layered.2.2.1 origin other _ _ {} {} hload hload'
    (.inl ⟨rfl, rfl⟩) (.inl ⟨rfl, rfl⟩) 0 .burst 7 hdecides hdecides'⟩

end DocSite.Settings
