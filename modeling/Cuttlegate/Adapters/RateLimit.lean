import Cuttlegate.Domain.Errors

/-!
# Rate Limiting

The fixed-window limiter both servers use, each with an instance of its own. A
key opens a window with its first request; within the window a bounded number
of requests passes, and the first request after its end opens the next one.

Times are counted in nanoseconds. The limiter of the tool server is given its
window in seconds, and multiplies them out in machine integers.

## Main definitions

* `RateLimiter`: The bound and the length of a window.
* `RateLimiter.allow`: The decision on one request.
* `FixedWindowRateLimiter`: The limiter of the tool server.

## Theorems

* `RateLimiter.allow_congr`: Keys do not share windows.
-/

namespace Cuttlegate

/-- One second. -/
def second : Time := 1000000000

structure WindowState where
  count : Int
  windowEnd : Time
  deriving DecidableEq, Repr

/-- The open windows, by key. -/
abbrev Windows := String → Option WindowState

structure RateLimiter where
  limit : Int
  windowSize : Time
  deriving DecidableEq, Repr

/-- Enter a window for a key. -/
def Windows.enter (windows : Windows) (key : String) (state : WindowState) : Windows :=
  fun k => if k = key then some state else windows k

/-- Whether a request of the key passes at the given time, and the windows
    afterwards. -/
def RateLimiter.allow (rl : RateLimiter) (now : Time) (key : String) (windows : Windows) :
    Bool × Windows :=
  match windows key with
  | none => (true, windows.enter key ⟨1, now + rl.windowSize⟩)
  | some s =>
      if s.windowEnd < now then (true, windows.enter key ⟨1, now + rl.windowSize⟩)
      else if s.count ≥ rl.limit then (false, windows)
      else (true, windows.enter key { s with count := s.count + 1 })

/-- The limiter of the tool server. -/
structure FixedWindowRateLimiter where
  limit : Int
  windowSecs : Int64
  deriving DecidableEq, Repr

/-- Its window as a duration, a 64-bit product. -/
def FixedWindowRateLimiter.window (rl : FixedWindowRateLimiter) : Int64 :=
  rl.windowSecs * 1000000000

/-- It decides as the other one does, on a window that is not negative. -/
def FixedWindowRateLimiter.allow (rl : FixedWindowRateLimiter) (now : Time) (key : String)
    (windows : Windows) : Bool × Windows :=
  RateLimiter.allow ⟨rl.limit, rl.window.toNatClampNeg⟩ now key windows

/-- Only the window of the key decides, and the decision is entered there. -/
theorem RateLimiter.allow_congr (rl : RateLimiter) (now : Time) (key : String)
    (windows windows' : Windows) (h : windows' key = windows key) :
    (rl.allow now key windows').1 = (rl.allow now key windows).1 ∧
      (rl.allow now key windows').2 key = (rl.allow now key windows).2 key := by
  unfold RateLimiter.allow
  rw [h]
  cases hw : windows key with
  | none => exact ⟨rfl, by simp [Windows.enter]⟩
  | some s =>
      simp only
      split
      · exact ⟨rfl, by simp [Windows.enter]⟩
      · split
        · exact ⟨rfl, h⟩
        · exact ⟨rfl, by simp [Windows.enter]⟩

end Cuttlegate
