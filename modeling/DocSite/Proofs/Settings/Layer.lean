import DocSite.Settings.Load

namespace DocSite.Settings

inductive Field
  | port
  | declaration
  | watch
  | watchDebounce
  | reloadStrategy
  | logLevel
  | shutdownGracePeriod
  | readHeaderTimeout
  | writeTimeout
  | idleTimeout
  | requestLogging
  | maxBodyBytes
  | rate
  | burst
deriving Repr, DecidableEq

namespace Field

abbrev Content : Field → Type
  | .port | .declaration | .reloadStrategy | .logLevel => String
  | .watch | .requestLogging => Bool
  | .watchDebounce | .shutdownGracePeriod | .readHeaderTimeout | .writeTimeout | .idleTimeout =>
    Duration
  | .maxBodyBytes | .burst => Int
  | .rate => Binary64

def get (settings : Settings) : (f : Field) → f.Content
  | .port => settings.port
  | .declaration => settings.declaration
  | .watch => settings.watch
  | .watchDebounce => settings.watchDebounce
  | .reloadStrategy => settings.reloadStrategy
  | .logLevel => settings.logLevel
  | .shutdownGracePeriod => settings.shutdownGracePeriod
  | .readHeaderTimeout => settings.readHeaderTimeout
  | .writeTimeout => settings.writeTimeout
  | .idleTimeout => settings.idleTimeout
  | .requestLogging => settings.requestLogging
  | .maxBodyBytes => settings.maxBodyBytes
  | .rate => settings.rate
  | .burst => settings.burst

def get? (layer : Layer) : (f : Field) → Option f.Content
  | .port => layer.port
  | .declaration => layer.declaration
  | .watch => layer.watch
  | .watchDebounce => layer.watchDebounce
  | .reloadStrategy => layer.reloadStrategy
  | .logLevel => layer.logLevel
  | .shutdownGracePeriod => layer.shutdownGracePeriod
  | .readHeaderTimeout => layer.readHeaderTimeout
  | .writeTimeout => layer.writeTimeout
  | .idleTimeout => layer.idleTimeout
  | .requestLogging => layer.requestLogging
  | .maxBodyBytes => layer.maxBodyBytes
  | .rate => layer.rate
  | .burst => layer.burst

theorem get_over (layer : Layer) (below : Settings) (f : Field) :
    f.get (layer.over below) = (f.get? layer).getD (f.get below) := by
  cases f <;> rfl

theorem eq_of_get {s t : Settings} (h : ∀ f : Field, f.get s = f.get t) : s = t := by
  cases s
  cases t
  rw [Settings.mk.injEq]
  exact ⟨h .port, h .declaration, h .watch, h .watchDebounce, h .reloadStrategy, h .logLevel,
    h .shutdownGracePeriod, h .readHeaderTimeout, h .writeTimeout, h .idleTimeout,
    h .requestLogging, h .maxBodyBytes, h .rate, h .burst⟩

end Field

abbrev Source := (f : Field) → f.Content → Prop

def Source.default : Source := fun f v => v = f.get {}

/-- Of these sources, the highest first, the one with number `k` decides a field: it sets the field,
and none above it does. -/
structure Decides (sources : List Source) (k : Nat) (f : Field) (v : f.Content) : Prop where
  sets : ∃ source, sources[k]? = some source ∧ source f v
  higher : ∀ i < k, ∀ source, sources[i]? = some source → ∀ w, ¬source f w

/-- A layer that sets what its source sets, and nothing else. -/
def Layer.Tells (layer : Layer) (source : Source) : Prop :=
  ∀ f v, f.get? layer = some v ↔ source f v

def Resolves (sources : List Source) (s : Settings) : Prop :=
  ∀ f v, (∃ k, Decides sources k f v) ↔ v = f.get s

section Decides

variable {sources : List Source} {source : Source} {f : Field} {v : f.Content}

theorem decides_cons_zero : Decides (source :: sources) 0 f v ↔ source f v := by
  constructor
  · rintro ⟨⟨_, h, hsets⟩, _⟩
    obtain rfl := Option.some.inj h
    exact hsets
  · exact fun h => ⟨⟨source, rfl, h⟩, nofun⟩

theorem decides_cons_succ {k : Nat} :
    Decides (source :: sources) (k + 1) f v ↔ (∀ w, ¬source f w) ∧ Decides sources k f v := by
  constructor
  · rintro ⟨hsets, hhigher⟩
    exact ⟨hhigher 0 (Nat.succ_pos k) source rfl, hsets,
      fun i hi => hhigher (i + 1) (Nat.succ_lt_succ hi)⟩
  · rintro ⟨hnone, hsets, hhigher⟩
    refine ⟨hsets, fun i hi => ?_⟩
    cases i with
    | zero =>
      intro _ h
      obtain rfl := Option.some.inj h
      exact hnone
    | succ i => exact hhigher i (Nat.lt_of_succ_lt_succ hi)

theorem exists_decides_cons_iff : (∃ k, Decides (source :: sources) k f v) ↔
    source f v ∨ (∀ w, ¬source f w) ∧ ∃ k, Decides sources k f v := by
  constructor
  · rintro ⟨_ | k, h⟩
    · exact .inl (decides_cons_zero.mp h)
    · obtain ⟨hnone, hk⟩ := decides_cons_succ.mp h
      exact .inr ⟨hnone, k, hk⟩
  · rintro (h | ⟨hnone, k, hk⟩)
    · exact ⟨0, decides_cons_zero.mpr h⟩
    · exact ⟨k + 1, decides_cons_succ.mpr ⟨hnone, hk⟩⟩

theorem resolves_default : Resolves [.default] {} := by
  intro f v
  rw [exists_decides_cons_iff]
  constructor
  · rintro (h | ⟨hnone, _⟩)
    · exact h
    · exact absurd rfl (hnone (f.get {}))
  · exact .inl

theorem Layer.Tells.resolves {layer : Layer} {below : Settings} (h : layer.Tells source)
    (hbelow : Resolves sources below) : Resolves (source :: sources) (layer.over below) := by
  intro f v
  rw [exists_decides_cons_iff, hbelow, Field.get_over]
  cases hf : f.get? layer with
  | none =>
    have hnone : ∀ w, ¬source f w := fun w hw => by simp [(h f w).mpr hw] at hf
    simp [hnone]
  | some w =>
    have hsets : ∀ u, source f u ↔ u = w := fun u => by rw [← h f u, hf, Option.some.injEq, eq_comm]
    simp [hsets]

theorem Resolves.get_eq {s : Settings} (h : Resolves sources s) {k : Nat}
    (hk : Decides sources k f v) : f.get s = v :=
  ((h f v).mp ⟨k, hk⟩).symm

theorem Resolves.unique {s t : Settings} (h : Resolves sources s) (h' : Resolves sources t) :
    s = t :=
  Field.eq_of_get fun f => (h' f _).mp ((h f _).mpr rfl)

end Decides

end DocSite.Settings
