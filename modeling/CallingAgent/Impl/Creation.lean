import CallingAgent.Impl.Endpoints

/-!
# `create_event` among the other requests

`create_event` of `services/api/src/routers/jobs.py`, cut where other requests
can come in between: the `INSERT` with its commit or its `IntegrityError`
(`insert`), and then the read that answers it (`read`): of the new row, by
`db.refresh`, or, after the rollback, of the row with the same
`(provider_call_id, event_type)`. Requests are numbered, and request `i` gives
its row the `i`-th id of `uuid4`. Every statement sees every row here; what a
statement sees under the policy is in `createEvent`.
-/

namespace CallingAgent.Impl.Creation

open CallingAgent.Framework CallingAgent.Impl CallingAgent.Impl.Jobs

/-- Where a `create_event` request stands after its `INSERT`. -/
inductive Phase
  | committed
  | conflict
  | answered (answer : Answer EventCreateResponse)

structure Request where
  body : EventCreateRequest
  phase : Phase

/-- The job API, and its `create_event` requests. -/
structure World where
  api : Jobs.State
  requests : Nat → Option Request

def World.init (now : Time) : World where
  api := .init now
  requests _ := none

/-- A request other than `create_event`. -/
def isOther : Jobs.Action → Bool
  | .create _ _ => false
  | _ => true

inductive Action
  | other (a : Jobs.Action) (h : isOther a = true)
  | insert (i : Nat) (body : EventCreateRequest)
  | read (i : Nat)

/-- The ids that `uuid4` gives out, which are all different. -/
structure Uuid4 where
  id : Nat → JobId
  injective : Function.Injective id

variable (uuid4 : Uuid4)

/-- What the `INSERT` of a request makes of it. -/
def insertPhase (api : Jobs.State) (i : Nat) (body : EventCreateRequest) : Phase :=
  match insertJob api.calls api.jobs (newJob body (uuid4.id i) api.now) with
  | some _ => .committed
  | none => .conflict

/-- `db.refresh(job)`. -/
def refresh (api : Jobs.State) (i : Nat) : Answer EventCreateResponse :=
  match api.job (uuid4.id i) with
  | some job => .ok { duplicate := false, event := job }
  | none => .raised

/-- The read after the rollback. -/
def readExisting (api : Jobs.State) (body : EventCreateRequest) : Answer EventCreateResponse :=
  match body.providerCallId with
  | none => .raised
  | some p =>
    match api.jobs.rows.find? (hasPair p body.eventType) with
    | some existing => .ok { duplicate := true, event := existing }
    | none => .raised

def World.setRequest (w : World) (i : Nat) (r : Request) : World :=
  { w with requests := Function.update w.requests i (some r) }

def step (w : World) : Action → World
  | .other a _ => { w with api := Jobs.step w.api a }
  | .insert i body =>
    match w.requests i with
    | some _ => w
    | none =>
      { api := Jobs.step w.api (.create (uuid4.id i) body)
        requests := Function.update w.requests i (some ⟨body, insertPhase uuid4 w.api i body⟩) }
  | .read i =>
    match w.requests i with
    | some ⟨body, .committed⟩ => w.setRequest i ⟨body, .answered (refresh uuid4 w.api i)⟩
    | some ⟨body, .conflict⟩ => w.setRequest i ⟨body, .answered (readExisting w.api body)⟩
    | _ => w

end CallingAgent.Impl.Creation
