import DocSite.Number.Binary64
import DocSite.Time.Duration

namespace DocSite.Http

/-- The decisions of a limiter, and how long it tells refused clients to wait. -/
structure Limiter where
  decisions : List Bool
  hint : Option Duration
deriving Repr

namespace Limiter

def allow (limiter : Limiter) : Bool × Limiter :=
  match limiter.decisions with
  | [] => (false, limiter)
  | decision :: rest => (decision, { limiter with decisions := rest })

def interval (rate : Binary64) : Duration :=
  ⟨((Binary64.ofInt 1000000000).div rate).toInt64⟩

/-- The decisions of a full bucket of at least one token over a time too short for it to gain
another. -/
def unfilled (burst : Int) : List Bool := List.replicate (max 1 burst).toNat true

def bucket (rate : Binary64) (decisions : List Bool) : Limiter := ⟨decisions, some (interval rate)⟩

def ofRate (rate : Binary64) (burst : Int) (decisions : List Bool := unfilled burst) :
    Option Limiter :=
  if rate.isNonPositive then none else some (bucket rate decisions)

def standard : Limiter := bucket (.ofInt 25) (unfilled 50)

def retryAfter (limiter : Limiter) : Nat :=
  match limiter.hint with
  | none => 1
  | some hint => if hint.nanoseconds ≤ 0 then 1 else (max 1 hint.inSeconds.ceil).toNat

theorem one_le_retryAfter (limiter : Limiter) : 1 ≤ limiter.retryAfter := by
  unfold retryAfter
  split
  · omega
  · split <;> omega

end Limiter

end DocSite.Http
