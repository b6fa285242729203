import CallingAgent.Impl.Models

/-!
# The life of a provider call

What the callback is for: a provider call is opened by its start event and closed
by its end event. `Life` says how far the two have come, with the times at which
the call was started, its session opened and the call ended; `Life.step` is what a
move of the handler of one of them makes of it.
-/

namespace CallingAgent.Spec.ProviderCall

open CallingAgent.Impl

inductive Event
  | start
  | finish
  deriving DecidableEq

/-- The event arrives, the API answers its handler, and the answer reaches the
handler. -/
inductive Move
  | arrives (e : Event)
  | answered (e : Event)
  | goesOn (e : Event)
  deriving DecidableEq

def Move.event : Move → Event
  | .arrives e | .answered e | .goesOn e => e

/-- What the handler at work waits for, and whether the API has answered it. -/
inductive Life
  | unknown
  | recordingStart (answered : Bool)
  | resolving (answered : Bool)
  | creating (startedAt : Time) (answered : Bool)
  | opened (startedAt openedAt : Time)
  | recordingEnd (startedAt openedAt : Time) (answered : Bool)
  | finalizing (startedAt openedAt endedAt : Time) (answered : Bool)
  | closed (startedAt endedAt : Time)
  deriving DecidableEq

/-- When the call was started, if it has been created. -/
def Life.startedAt : Life → Option Time
  | .creating startedAt true | .opened startedAt _ | .recordingEnd startedAt _ _ | .finalizing startedAt _ _ _
  | .closed startedAt _ => some startedAt
  | _ => none

/-- When its session was opened, if it has one. -/
def Life.openedAt : Life → Option Time
  | .opened _ openedAt | .recordingEnd _ openedAt _ | .finalizing _ openedAt _ _ => some openedAt
  | _ => none

/-- When it ended, if it has been finalized. -/
def Life.endedAt : Life → Option Time
  | .finalizing _ _ endedAt true | .closed _ endedAt => some endedAt
  | _ => none

/-- The start event has been handled. -/
def Life.hasStarted : Life → Bool
  | .opened _ _ | .recordingEnd _ _ _ | .finalizing _ _ _ _ | .closed _ _ => true
  | _ => false

def Life.step (now : Time) : Life → Move → Life
  | .unknown, .arrives .start => .recordingStart false
  | .recordingStart false, .answered .start => .recordingStart true
  | .recordingStart true, .goesOn .start => .resolving false
  | .resolving false, .answered .start => .resolving true
  | .resolving true, .goesOn .start => .creating now false
  | .creating startedAt false, .answered .start => .creating startedAt true
  | .creating startedAt true, .goesOn .start => .opened startedAt now
  | .opened startedAt openedAt, .arrives .finish => .recordingEnd startedAt openedAt false
  | .recordingEnd startedAt openedAt false, .answered .finish => .recordingEnd startedAt openedAt true
  | .recordingEnd startedAt openedAt true, .goesOn .finish => .finalizing startedAt openedAt now false
  | .finalizing startedAt openedAt endedAt false, .answered .finish => .finalizing startedAt openedAt endedAt true
  | .finalizing startedAt _ endedAt true, .goesOn .finish => .closed startedAt endedAt
  | life, _ => life

/-- The moves of a whole life. -/
def script : List Move :=
  [.arrives .start, .answered .start, .goesOn .start, .answered .start, .goesOn .start, .answered .start,
    .goesOn .start, .arrives .finish, .answered .finish, .goesOn .finish, .answered .finish, .goesOn .finish]

/-- How many of them have been made. -/
def Life.progress : Life → Nat
  | .unknown => 0
  | .recordingStart answered => if answered then 2 else 1
  | .resolving answered => if answered then 4 else 3
  | .creating _ answered => if answered then 6 else 5
  | .opened _ _ => 7
  | .recordingEnd _ _ answered => if answered then 9 else 8
  | .finalizing _ _ _ answered => if answered then 11 else 10
  | .closed _ _ => 12

/-- A move is the next of the script, or does nothing. -/
theorem Life.progress_step (life : Life) (now : Time) (move : Move) :
    (life.step now move).progress = if script[life.progress]? = some move then life.progress + 1 else life.progress := by
  rcases move with (_ | _) | (_ | _) | (_ | _) <;>
    rcases life with _ | (_ | _) | (_ | _) | ⟨_, _ | _⟩ | _ | ⟨_, _, _ | _⟩ | ⟨_, _, _, _ | _⟩ | _ <;> rfl

theorem Life.eq_closed {life : Life} (h : script.length ≤ life.progress) :
    ∃ startedAt endedAt, life = .closed startedAt endedAt := by
  rw [show script.length = 12 from rfl] at h
  cases life with
  | closed startedAt endedAt => exact ⟨startedAt, endedAt, rfl⟩
  | _ => grind [Life.progress]

/-- The start event is handled once. -/
theorem Life.step_of_hasStarted {life : Life} (h : life.hasStarted = true) (now : Time) (move : Move)
    (hm : move.event = .start) : life.step now move = life := by
  unfold Life.step
  split <;> simp_all [hasStarted, Move.event]

/-- Before that the end event moves nothing. -/
theorem Life.step_of_not_hasStarted {life : Life} (h : life.hasStarted = false) (now : Time) (move : Move)
    (hm : move.event = .finish) : life.step now move = life := by
  unfold Life.step
  split <;> simp_all [hasStarted, Move.event]

end CallingAgent.Spec.ProviderCall
