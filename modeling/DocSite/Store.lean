import DocSite.Finding
import DocSite.Site.Reconcile
import DocSite.Time.Calendar

/-!
The store of the current configuration. It holds one snapshot at a time; an update derives the next
configuration from the current snapshot and either takes its place, under the next version, or
leaves the store as it was.
-/

namespace DocSite

/-- One generation of the configuration. Versions go on without end here. Where they are kept in 64
bits, whatever is said about them holds for fewer than 2 ^ 64 updates. -/
structure Snapshot where
  site : Site
  version : Nat
  source : String
  updatedAt : Instant
deriving Repr

/-- A clock: what it shows whenever it is read from now on. -/
structure Clock where
  readings : Nat → Instant

namespace Clock

def now (clock : Clock) : Instant := clock.readings 0

def tick (clock : Clock) : Clock := ⟨fun k => clock.readings (k + 1)⟩

def steady (start : Instant) (step : Nat) : Clock := ⟨fun k => start.later (k * step)⟩

instance : Repr Clock := ⟨fun clock => reprPrec clock.now⟩

end Clock

inductive Trouble
  | notLoaded
  | fault (cause : Fault)
  | crash (message : String)
deriving Repr

def Trouble.message : Trouble → String
  | .notLoaded => "site configuration has not been loaded"
  | .fault cause => cause.message
  | .crash message => message

structure Store where
  snapshot : Option Snapshot
  clock : Clock
deriving Repr

namespace Store

def new (clock : Clock) : Store := ⟨none, clock⟩

def current (store : Store) : Except Trouble Snapshot :=
  match store.snapshot with
  | some snapshot => .ok snapshot
  | none => .error .notLoaded

def nextVersion (store : Store) : Nat :=
  match store.snapshot with
  | some snapshot => snapshot.version + 1
  | none => 1

def commit (store : Store) (source : String) (site : Site) : Snapshot × Store :=
  let snapshot := ⟨site, store.nextVersion, source, store.clock.now⟩
  (snapshot, ⟨some snapshot, store.clock.tick⟩)

/-- Derives the next configuration from the current snapshot and puts it in; when that goes wrong
the store and its clock stay as they are. -/
def update (store : Store) (source : String) (next : Option Snapshot → Except Trouble Site) :
    Except Trouble Snapshot × Store :=
  match next store.snapshot with
  | .ok site =>
    let (snapshot, store) := store.commit source site
    (.ok snapshot, store)
  | .error trouble => (.error trouble, store)

end Store

inductive Strategy
  | replace
  | reconcile
deriving DecidableEq, Repr

def Strategy.apply (strategy : Strategy) (current : Option Snapshot) (site : Site) : Site :=
  match strategy, current with
  | .reconcile, some snapshot => snapshot.site.reconcile site
  | _, _ => site

def Store.put (store : Store) (strategy : Strategy) (source : String) (site : Site) :
    Except Trouble Snapshot × Store :=
  store.update source fun current => .ok (strategy.apply current site)

end DocSite
