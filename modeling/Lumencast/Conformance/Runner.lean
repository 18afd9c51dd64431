import Lumencast.Conformance.Harness
import Lumencast.Interop.HttpDriver

/-!
# Conformance/Runner — playing a scenario

The runner dials the server and goes through the steps of a scenario: it sends frames, compares the
ones it receives, has the driver emit, and checks the state.  What its calls come to is up to the
environment (`Playback`), and a failed step ends the scenario.  `runScenarios` plays one scenario
after another and reports on each.
-/

namespace Lumencast

open Machinery

/-! ## Scenarios, as the runner reads them -/

/-- A step, with what the runner reads of it besides its frame. -/
structure PlayStep extends Step where
  rawKind : PyStr := ""
  state : Json := .obj []
  /-- `duration_ms / 1000.0`, as an f-string shows it. -/
  secs : PyStr := "0.0"
  action : PyStr := ""

/-- How important a scenario is. -/
inductive Tag where
  | required
  | recommended
  | extended
  deriving DecidableEq

/-- What a scenario is for. -/
inductive Target where
  | any
  | server
  | runtime
  deriving DecidableEq

/-- A scenario, with what the runner reads of it. -/
structure Script where
  scenario : Scenario
  tag : Tag := .required
  target : Target := .any
  steps : List PlayStep
  steps_eq : scenario.steps = steps.map PlayStep.toStep

/-! ## What the environment answers

Time, the connection and the driver are outside of the runner.  Each call it makes of them ends
in a value, an exception or a timeout, and nothing more is known of it. -/

/-- An exception: the name of its type, and its text. -/
structure Exn where
  name : PyStr
  text : PyStr
  deriving DecidableEq

/-- How a call ends that is awaited; `timeUp` when the scenario has taken too long. -/
inductive Awaited (α : Type) where
  | returned (a : α)
  | raised (e : Exn)
  | timeUp

/-- What `json.loads` comes to. -/
inductive Loaded where
  | value (v : Json)
  /-- A `ValueError`. -/
  | notJson (e : Exn)
  /-- Any other exception. -/
  | raised (e : Exn)

/-- How a `ws.recv()` ends that is given some time. -/
inductive Recv where
  /-- A message, as `repr` shows it and as `json.loads` reads it. -/
  | message (shown : PyStr) (loaded : Loaded)
  | timeout
  /-- `ConnectionClosed`, with the code of the close frame if there is one. -/
  | closed (code : Option ℤ) (e : Exn)
  | raised (e : Exn)
  | timeUp

/-- What the environment answers to a step, whatever the step asks for. -/
structure Replies where
  send : Awaited Unit := .returned ()
  drained : Recv := .timeout
  received : Recv := .timeout
  emit : Awaited Unit := .returned ()
  snapshot : Awaited (Option (List (PyStr × Json))) := .returned none
  sleep : Awaited Unit := .returned ()

/-- What the environment answers while a scenario is played. -/
structure Playback where
  /-- The tokens, from `driver.setup`. -/
  setup : Awaited (Dict PyStr PyStr)
  dial : Awaited Unit := .returned ()
  replies : ℕ → Replies

/-! ## One step

A step goes on with the play it leaves, or stops the scenario for a reason that decides the
verdict. -/

/-- How a scenario ends early. -/
inductive Stop where
  /-- `_ScenarioSkipped`. -/
  | skipped (reason : PyStr)
  | failed (e : Exn)
  deriving DecidableEq

def Stop.assertion (message : PyStr) : Stop := .failed ⟨"AssertionError", message⟩

/-- The `TimeoutError` of `asyncio.wait_for`. -/
def Stop.timedOut : Stop := .failed ⟨"TimeoutError", ""⟩

def Awaited.get {α : Type} : Awaited α → Except Stop α
  | .returned a => .ok a
  | .raised e => .error (.failed e)
  | .timeUp => .error .timedOut

/-- What is raised in place of a message. -/
def Recv.stop : Recv → Stop
  | .closed _ e => .failed e
  | .raised e => .failed e
  | _ => .timedOut

/-- `v.attr`, of a value that has no such method. -/
def noAttribute (v : Json) (attr : PyStr) : Stop :=
  .failed ⟨"AttributeError", "'" ++ v.typeName ++ "' object has no attribute '" ++ attr ++ "'"⟩

/-- What the runner makes of what the matcher raises: an assertion, or the `float()` of an integer
that is too large. -/
def MatchError.stop [PyRepr] (context : PyStr → PyStr) : MatchError → Stop
  | .assertion m => .assertion (context m.message)
  | .raised _ => .failed ⟨"OverflowError", "int too large to convert to float"⟩

/-- What a scenario has come to; what it asked of the server is history. -/
structure Play where
  /-- `runtime_state`. -/
  shadow : Dict PyStr Json := .empty
  /-- The frames it has sent. -/
  sent : List Json := []
  /-- The patches it has had emitted. -/
  emitted : List (List Json) := []

section Steps

variable [PyRepr] (tokens bundleHashes : Dict PyStr PyStr)

/-- Mirror a frame that was received. -/
def Play.absorb (p : Play) (frame : List (PyStr × Json)) : Except Stop Play :=
  match absorbServerFrame frame p.shadow with
  | some shadow => .ok { p with shadow := shadow }
  | none => .error (.failed ⟨"TypeError", "'" ++
      ((Json.lookup frame "patches").getD .null).typeName ++ "' object is not iterable"⟩)

/-- The part of `_expect_server_frame` that compares. -/
def compareFrame (expected : Json) (shown : PyStr) (actual : List (PyStr × Json)) :
    Except Stop Unit :=
  match substitutePlaceholders tokens bundleHashes expected with
  | .obj resolved => (matchFrame resolved actual).mapError
      (MatchError.stop fun m => "frame mismatch: " ++ m ++ " (got " ++ shown ++ ")")
  | resolved => .error (noAttribute resolved "items")

/-- `_expect_server_frame`. -/
def expectServerFrame (expected : Json) (p : Play) : Recv → Except Stop Play
  | .message shown (.value (.obj actual)) =>
      (compareFrame tokens bundleHashes expected shown actual).bind fun _ => p.absorb actual
  | .message shown (.value _) =>
      .error (.assertion ("server frame is not a JSON object: " ++ shown))
  | .message _ (.notJson e) => .error (.failed e)
  | .message _ (.raised e) => .error (.failed e)
  | r => .error r.stop

/-- `_drain_one_frame_with_timeout`. -/
def drainOneFrame (p : Play) : Recv → Except Stop Play
  | .message _ (.value (.obj actual)) => p.absorb actual
  | .message _ (.raised e) => .error (.failed e)
  | .message _ _ => .ok p
  | .timeout => .ok p
  | r => .error r.stop

/-- The loop of `server-emits` over its patches. -/
def patchesToEmit : List Json → Except Stop (List Json)
  | [] => .ok []
  | .obj kvs :: ps => (patchesToEmit ps).map (.obj (substitutePairs tokens bundleHashes kvs) :: ·)
  | v :: _ => .error (.assertion ("server-emits: patch must be a mapping: " ++ v.repr))

/-- A frame whose type is `delta`. -/
def isDelta (frame : List (PyStr × Json)) : Bool :=
  match Json.lookup frame "type" with
  | some (.str t) => t = "delta"
  | _ => false

/-- `server-emits`, once a frame was drained. -/
def serverEmits (frame : Json) (r : Replies) (p : Play) : Except Stop Play :=
  match frame with
  | .obj kvs =>
      if isDelta kvs then
        match (Json.lookup kvs "patches").getD (.arr []) with
        | .arr ps => do
            let patches ← patchesToEmit tokens bundleHashes ps
            r.emit.get
            expectServerFrame tokens bundleHashes frame
              { p with emitted := p.emitted ++ [patches] } r.received
        | _ => .error (.assertion "server-emits: patches must be a list")
      else
        .error (.assertion ("server-emits only supports type=delta, got "
          ++ ((Json.lookup kvs "type").getD .null).repr))
  | v => .error (noAttribute v "get")

/-- The loop over an expected state; `noun` says whose. -/
def expectPairs (noun : PyStr) (find : PyStr → Option Json) :
    List (PyStr × Json) → Except Stop Unit
  | [] => .ok ()
  | (k, v) :: kvs =>
      match find k with
      | none => .error (.assertion (noun ++ " state missing " ++ PyRepr.str k))
      | some w => do
          (matchValue v w k).mapError (MatchError.stop id)
          expectPairs noun find kvs

/-- `step.state.items()`. -/
def expectState (noun : PyStr) (find : PyStr → Option Json) : Json → Except Stop Unit
  | .obj kvs => expectPairs noun find kvs
  | v => .error (noAttribute v "items")

/-- Nothing is to be received; a clean close is as good. -/
def expectNoFrame (secs : PyStr) : Recv → Except Stop Unit
  | .timeout => .ok ()
  | .closed code _ =>
      if code = some 1000 ∨ code = some 1001 ∨ code = some 1005 then .ok ()
      else .error (.assertion ("expect-no-frame-for: abnormal close code "
        ++ code.elim "None" (fun c => toString c) ++ " within " ++ secs ++ "s"))
  | .message shown _ =>
      .error (.assertion ("expected silence for " ++ secs ++ "s, got frame: " ++ shown))
  | .raised e => .error (.failed e)
  | .timeUp => .error .timedOut

/-- The connection is to be closed; any exception will do. -/
def expectClientAction (action : PyStr) (r : Recv) : Except Stop Unit :=
  if action = "close-with-reason" ∨ action = "reconnect" then
    match r with
    | .message shown _ =>
        .error (.assertion ("expected connection close, got frame: " ++ shown))
    | .timeUp => .error .timedOut
    | _ => .ok ()
  else .error (.skipped ("unsupported expect-client-action.action=" ++ PyRepr.str action))

/-- `_run_step`. -/
def runStep (step : PlayStep) (r : Replies) (p : Play) : Except Stop Play :=
  match step.kind with
  | .clientSends =>
      r.send.get.map fun _ =>
        { p with sent := p.sent ++ [substitutePlaceholders tokens bundleHashes step.frame] }
  | .serverSends => expectServerFrame tokens bundleHashes step.frame p r.received
  | .serverEmits => (drainOneFrame p r.drained).bind
      (serverEmits tokens bundleHashes step.frame r)
  | .expectRuntimeState => (expectState "runtime" p.shadow.get? step.state).map fun _ => p
  | .expectServerState => do
      match ← r.snapshot.get with
      | none => (expectState "server" p.shadow.get? step.state).map fun _ => p
      | some state => (expectState "server" (Json.lookup state) step.state).map fun _ => p
  | .expectNoFrameFor => (expectNoFrame step.secs r.received).map fun _ => p
  | .expectClientAction => (expectClientAction step.action r.received).map fun _ => p
  | .wait => r.sleep.get.map fun _ => p
  | _ => .error (.skipped ("unsupported step kind " ++ PyRepr.str step.rawKind))

/-- The loop of `_run_one`. -/
def runSteps : List PlayStep → (ℕ → Replies) → Play → Except Stop Play
  | [], _, p => .ok p
  | step :: steps, replies, p =>
      (runStep tokens bundleHashes step (replies 0) p).bind
        (runSteps steps fun i => replies (i + 1))

end Steps

/-! ## One scenario after another -/

/-- `_run_one`. -/
def runOne [PyRepr] (sc : Script) (env : Playback) : Except Stop Play := do
  let tokens ← env.setup.get
  env.dial.get
  runSteps tokens sc.scenario.bundleHashes sc.steps env.replies {}

inductive Outcome where
  | pass
  | fail
  | skip
  deriving DecidableEq

structure Result where
  name : PyStr
  tag : Tag
  target : Target
  outcome : Outcome
  reason : PyStr := ""
  deriving DecidableEq

structure Report where
  total : ℕ := 0
  passed : ℕ := 0
  failed : ℕ := 0
  skipped : ℕ := 0
  results : List Result := []

/-- The harness configuration, but for the driver. -/
structure Config where
  tagFilter : Option Tag := some .required
  skipScenarios : List PyStr := []

/-- The verbs the harness executes. -/
def StepKind.runnable : StepKind → Bool
  | .clientAction => false
  | .setClock => false
  | .unsupported => false
  | _ => true

/-- `_has_unsupported_step`. -/
def hasUnsupportedStep (sc : Script) : Bool := sc.steps.any fun step => !step.kind.runnable

/-- Why a scenario is not even started. -/
def Config.skips (cfg : Config) (sc : Script) : Option PyStr :=
  if sc.scenario.name ∈ cfg.skipScenarios then some "skipped via config"
  else if cfg.tagFilter.any (· ≠ sc.tag) then some "tag filter"
  else if sc.target = .runtime then some "runtime-targeted scenario, harness drives a server"
  else if hasUnsupportedStep sc then some "unsupported step"
  else none

/-- How a scenario is judged, and why. -/
def Stop.verdict : Except Stop Play → Outcome × PyStr
  | .ok _ => (.pass, "")
  | .error (.skipped reason) => (.skip, reason)
  | .error (.failed e) => (.fail, e.name ++ ": " ++ e.text)

/-- What is reported of one scenario. -/
def resultOf [PyRepr] (cfg : Config) (sc : Script) (env : Playback) : Result :=
  let verdict := match cfg.skips sc with
    | some reason => (Outcome.skip, reason)
    | none => Stop.verdict (runOne sc env)
  { name := sc.scenario.name, tag := sc.tag, target := sc.target, outcome := verdict.1,
    reason := verdict.2 }

/-- Count a result in. -/
def Report.add (rep : Report) (result : Result) : Report where
  total := rep.total + 1
  passed := rep.passed + if result.outcome = .pass then 1 else 0
  failed := rep.failed + if result.outcome = .fail then 1 else 0
  skipped := rep.skipped + if result.outcome = .skip then 1 else 0
  results := rep.results ++ [result]

/-- `run_scenarios`: each scenario is given what the environment answers while it is played. -/
def runScenarios [PyRepr] (cfg : Config) (runs : List (Script × Playback)) : Report :=
  runs.foldl (fun rep x => rep.add (resultOf cfg x.1 x.2)) {}

/-- The exit code of `lumencast conformance`, once the scenarios were run. -/
def Report.exitCode (rep : Report) : ℕ := if rep.failed = 0 then 0 else 1

end Lumencast
