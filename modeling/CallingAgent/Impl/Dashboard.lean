import CallingAgent.Framework.Run

/-!
# `apps/*/src/lib/api/client.ts`: the dashboards' axios instance

The interceptors and the token storage, which the two dashboards have in common but for the
login page. A request is numbered and keeps its number when it is sent again: its promise
is then that of the new attempt. A response handler runs from one `await` to the next in
one step; the only `await` is that of `/auth/refresh`.

`results`, `waited` and `settlements` are a history of the page: how each refresh ended, the
callbacks in the order they were pushed, and the calls of these.
-/

namespace CallingAgent.Impl.Dashboard

open CallingAgent.Framework

inductive App
  | clientDashboard
  | adminDashboard

def App.loginPage : App → String
  | .clientDashboard => "/client/login/"
  | .adminDashboard => "/admin/login/"

/-- `AxiosRequestConfig` with `_retry`; `authorization` is the bearer token. -/
structure Config where
  retry : Bool := false
  authorization : Option String := none
  deriving DecidableEq

inductive Phase
  | sent
  | queued
  | refreshing
  | fulfilled
  | rejected
  deriving DecidableEq

structure Request where
  config : Config
  phase : Phase
  deriving DecidableEq

/-- A callback of `refreshQueue`, with its request, and the refresh during which it was
pushed. -/
structure Waiting where
  request : Nat
  original : Config
  refresh : Nat
  deriving DecidableEq

/-- What becomes of a queued request. -/
inductive Outcome
  | resent (authorization : Option String)
  | rejected
  deriving DecidableEq

/-- `refresh` is the one that settled the request. -/
structure Settlement where
  waiting : Waiting
  refresh : Nat
  outcome : Outcome
  deriving DecidableEq

/-- With the `sessionStorage` of its tab (`sk_access`, `sk_refresh`), and the
`window.location.href` it has set. -/
structure Page where
  isRefreshing : Bool
  refreshQueue : List Waiting
  accessToken : Option String
  refreshToken : Option String
  location : Option String
  requests : Nat → Option Request
  results : List (Option String)
  waited : List Waiting
  settlements : List Settlement

/-- A page that has been loaded, with the tokens of the tab. -/
def Page.init (accessToken refreshToken : Option String) : Page where
  isRefreshing := false
  refreshQueue := []
  accessToken := accessToken
  refreshToken := refreshToken
  location := none
  requests _ := none
  results := []
  waited := []
  settlements := []

/-! ## Token storage -/

/-- `getRefreshToken()`; an empty one is falsy. -/
def Page.getRefreshToken (page : Page) : Option String := page.refreshToken.filter (· ≠ "")

def Page.setTokens (page : Page) (access refresh : String) : Page :=
  { page with accessToken := some access, refreshToken := some refresh }

def Page.clearTokens (page : Page) : Page := { page with accessToken := none, refreshToken := none }

/-! ## Requests -/

def Page.setRequest (page : Page) (i : Nat) (request : Request) : Page :=
  { page with requests := Function.update page.requests i (some request) }

/-- The request interceptor. -/
def Page.attach (page : Page) (config : Config) : Config :=
  match page.accessToken.filter (· ≠ "") with
  | some token => { config with authorization := some token }
  | none => config

/-- `client(config)`. -/
def Page.client (page : Page) (i : Nat) (config : Config) : Page := page.setRequest i ⟨page.attach config, .sent⟩

/-- `original.headers = {...}` and `client(original)`. -/
def Page.resend (page : Page) (i : Nat) (original : Config) (token : String) : Page :=
  page.client i { original with authorization := some token }

/-- What `resend` sends. -/
def Page.resent (page : Page) (original : Config) (token : String) : Outcome :=
  .resent (page.attach { original with authorization := some token }).authorization

/-- A callback of the queue; its `resolve` gives the promise of the request the outcome of
the new attempt. -/
def Page.callback (page : Page) (waiting : Waiting) (token : String) : Page :=
  let settlement := ⟨waiting, page.results.length, page.resent waiting.original token⟩
  { page.resend waiting.request waiting.original token with settlements := page.settlements ++ [settlement] }

/-! ## The response interceptor -/

/-- After the answer of `/auth/refresh`, to the end of `finally`. -/
def Page.refreshSucceeded (page : Page) (i : Nat) (request : Request) (access refresh : String) : Page :=
  let page := page.setTokens access refresh
  let page := page.refreshQueue.foldl (fun page waiting => page.callback waiting access) page
  let page := { page with refreshQueue := [] }
  let page := page.resend i request.config access
  { page with isRefreshing := false, results := page.results ++ [some access] }

/-- The `catch` and the `finally`. -/
def Page.refreshFailed (app : App) (page : Page) (i : Nat) (request : Request) : Page :=
  let page := page.clearTokens
  let page := { page with location := some app.loginPage }
  let page := page.setRequest i { request with phase := .rejected }
  { page with isRefreshing := false, results := page.results ++ [none] }

/-- A 401, to the `await` if there is one. -/
def Page.unauthorized (app : App) (page : Page) (i : Nat) (request : Request) : Page :=
  if request.config.retry then page.setRequest i { request with phase := .rejected }
  else if page.isRefreshing then
    let waiting := ⟨i, request.config, page.results.length⟩
    { page.setRequest i { request with phase := .queued } with
      refreshQueue := page.refreshQueue ++ [waiting]
      waited := page.waited ++ [waiting] }
  else
    let request := { request with config := { request.config with retry := true } }
    let page := { page with isRefreshing := true }
    match page.getRefreshToken with
    | none => page.refreshFailed app i request
    | some _ => page.setRequest i { request with phase := .refreshing }

/-! ## The page -/

/-- The status of a response, or `none` for an error without one. -/
inductive Response
  | ok
  | error (status : Option Nat)
  deriving DecidableEq

inductive Action
  /-- The dashboard makes a request. -/
  | send (i : Nat)
  | respond (i : Nat) (response : Response)
  /-- `/auth/refresh` answers with two tokens, or fails. -/
  | refreshed (i : Nat) (result : Option (String × String))
  /-- A login. -/
  | setTokens (access refresh : String)
  /-- A logout. -/
  | clearTokens

/-- The request `i`, if it is in this phase. -/
def Page.inPhase (page : Page) (i : Nat) (phase : Phase) : Option Request :=
  (page.requests i).filter (·.phase = phase)

def step (app : App) (page : Page) : Action → Page
  | .send i =>
    match page.requests i with
    | none => page.client i {}
    | some _ => page
  | .respond i response =>
    match page.inPhase i .sent with
    | none => page
    | some request =>
      match response with
      | .ok => page.setRequest i { request with phase := .fulfilled }
      | .error status =>
        if status = some 401 then page.unauthorized app i request
        else page.setRequest i { request with phase := .rejected }
  | .refreshed i result =>
    match page.inPhase i .refreshing with
    | none => page
    | some request =>
      match result with
      | some (access, refresh) => page.refreshSucceeded i request access refresh
      | none => page.refreshFailed app i request
  | .setTokens access refresh => page.setTokens access refresh
  | .clearTokens => page.clearTokens

end CallingAgent.Impl.Dashboard
