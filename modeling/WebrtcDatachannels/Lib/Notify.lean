import Mathlib.Tactic.Common

/-!
# Waiting for a condition with notifications that are not stored

A call waits until a shared condition holds. On each turn it creates a waiter, arms it, checks the
condition by one load after another, and sleeps when no load found it. A notification wakes every
waiter there is, asleep or not, and leaves nothing for those created later. `Waiter κ` is where such
a call is, `κ` the loads of its check.

`Waiter.Sound` says of a call that has not been woken which promises it relies on: `safe c` when its
next load is `c`, `quiet` when it sleeps. A notification leaves every call sound for any promises
(`Waiter.sound_notify`), so whoever changes the condition only has to keep the promises until the
notification that follows.
-/

namespace Notify

variable {κ : Type*}

/-- Where a waiting call is: at the top of its loop, with a waiter created, before a load of its
check with the waiter armed, or asleep. The flag says whether a notification has come since the
waiter was created. -/
inductive Waiter (κ : Type*) where
  | top
  | created (woken : Bool)
  | checking (load : κ) (woken : Bool)
  | parked (woken : Bool)
deriving DecidableEq, Repr

namespace Waiter

/-- What a notification does to a call. -/
def notify : Waiter κ → Waiter κ
  | .top => .top
  | .created _ => .created true
  | .checking load _ => .checking load true
  | .parked _ => .parked true

/-- The next operation of a call, other than a load: it creates its waiter, arms it, or goes back to
the top once it is woken. -/
def proceed (first : κ) : Waiter κ → Option (Waiter κ)
  | .top => some (.created false)
  | .created woken => some (.checking first woken)
  | .parked true => some .top
  | .checking _ _ | .parked false => none

/-- What a call that has not been woken relies on. -/
def Sound (safe : κ → Prop) (quiet : Prop) : Waiter κ → Prop
  | .checking load false => safe load
  | .parked false => quiet
  | .top | .created _ | .checking _ true | .parked true => True

variable {safe safe' : κ → Prop} {quiet quiet' : Prop} {w w' : Waiter κ}

/-- After a notification a call relies on nothing. -/
theorem sound_notify (w : Waiter κ) : w.notify.Sound safe quiet := by
  cases w <;> trivial

/-- A call that is sound stays so as long as its promises are kept. -/
theorem Sound.mono (h : w.Sound safe quiet) (hsafe : ∀ load, safe load → safe' load)
    (hquiet : quiet → quiet') : w.Sound safe' quiet' := by
  match w with
  | .checking load false => exact hsafe load h
  | .parked false => exact hquiet h
  | .top | .created _ | .checking _ true | .parked true => trivial

/-- A call that goes on relies on the first load of its check being safe. -/
theorem sound_proceed {first : κ} (hfirst : safe first) (h : w.proceed first = some w') :
    w'.Sound safe quiet := by
  match w with
  | .top => cases h; trivial
  | .created false => cases h; exact hfirst
  | .created true => cases h; trivial
  | .parked true => cases h; trivial

/-- A call that found nothing sleeps soundly when its last load leaves the promise behind. -/
theorem sound_parked {woken : Bool} (h : woken = false → quiet) :
    (Waiter.parked woken : Waiter κ).Sound safe quiet := by
  cases woken with
  | false => exact h rfl
  | true => trivial

/-- A call that found nothing goes on to a load that is safe now. -/
theorem sound_checking {load : κ} {woken : Bool} (h : woken = false → safe load) :
    (Waiter.checking load woken).Sound safe quiet := by
  cases woken with
  | false => exact h rfl
  | true => trivial

end Waiter

end Notify
