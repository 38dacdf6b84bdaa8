import Depends.Failure

/-!
A bound on how often a job may start: a bucket of one token that fills at a given rate. Within a run the
bucket is taken not to fill again; without a rate it never runs dry.
-/
namespace Depends

/-- A throttle: with or without bound, and whether the token is there. -/
structure Throttle where
  unlimited : Bool
  hasToken : Bool := true

namespace Throttle

/-- Takes the token if it is there. -/
def ready (t : Throttle) : Bool × Throttle :=
  if t.unlimited then (true, t) else (t.hasToken, { t with hasToken := false })

/-- Whether a job would have to wait. Asking while the token is there takes it. -/
def delayed (t : Throttle) : Bool × Throttle :=
  if t.unlimited then (false, t) else (!t.hasToken, { t with hasToken := false })

/-- Waits for the token; a cancelled wait takes none. -/
def wait (t : Throttle) (cancelled : Bool) : Option Failure × Throttle :=
  if cancelled then (some .cancelled, t)
  else if t.unlimited then (none, t) else (none, { t with hasToken := false })

end Throttle

end Depends
