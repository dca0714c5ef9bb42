import RequestFlow.Hook.Guard
import RequestFlow.Hook.Layer

/-!
# Scripted hooks and actions

A script describes a hook or an action by the steps it takes. Every script can log, change its
context and panic; layers and actions can also let time pass; guards end with a verdict, and layers
enter the inner chain at most once. After that the context has moved inward, so a layer that goes on
works on an empty one and its view of the chain is gone.

Hooks and actions may also take steps at the moment they are called, before their run begins. Those
steps see no context.
-/

namespace RequestFlow.Sample

inductive Step where
  | log (line : String)
  | set (key : String) (value : Json)
  | remove (key : String)
  | copy (source target : String)
  /-- Log the context. -/
  | dump
  | raise (p : Panic)

def Step.run (c : Context) : Step → Run Context
  | .log line => do Run.log (.note line); pure c
  | .set key value => pure (c.insert key value)
  | .remove key => pure (c.erase key)
  | .copy source target => pure (c.copy source target)
  | .dump => do Run.log (.context c); pure c
  | .raise p => Run.raise p

/-- The steps taken when a hook or an action is called. -/
def atCall (steps : List Step) : Run Unit := do
  let _ ← steps.foldlM Step.run ∅
  pure ()

/-- Steps of a guard. A verdict may build a response, which may be reported. -/
inductive GuardStep where
  | step (s : Step)
  /-- Return a verdict if a key is absent. -/
  | require (key : String) (flow : Run Flow)
  /-- Return a verdict unless a key holds a certain string. -/
  | requireText (key text : String) (flow : Run Flow)
  | give (flow : Run Flow)

/-- A scripted guard; at the end of its script the run goes on. -/
def guard : List GuardStep → Context → Run (Context × Flow)
  | [], c => pure (c, .proceed)
  | .step s :: rest, c => do guard rest (← s.run c)
  | .require key flow :: rest, c => do
    if c.contains key then guard rest c else pure (c, ← flow)
  | .requireText key text flow :: rest, c => do
    if c.param? key = some text then guard rest c else pure (c, ← flow)
  | .give flow :: _, c => do pure (c, ← flow)

inductive LayerStep where
  | step (s : Step)
  | sleep (duration : Nat)
  | yield
  /-- Enter the inner chain and take over its result. -/
  | next
  /-- Log the name of the handler that the inner chain belongs to. -/
  | logHandler
  /-- Log the view of the inner chain. -/
  | logAhead
  /-- Log the result. -/
  | logResult
  | respond (response : Run Response)
  | halt (party : String) (response : Option (Run Response))
  | fail (f : Failure)
  /-- Replace the result if it is a failure. -/
  | recover (response : Run Response)
  /-- Return at once if the result is a failure, with a failure of this hook. -/
  | attempt

def LayerStep.isNext : LayerStep → Bool
  | .next => true
  | _ => false

/-- Where a layer's script stands. -/
structure LayerState where
  context : Context
  result : Handled
  /-- Whether the script has returned. -/
  returned : Bool

/-- Take one step of a layer other than entering the inner chain. -/
def LayerStep.run (ahead : Option Ahead) (s : LayerState) : LayerStep → Run LayerState
  | .step basic => do pure { s with context := ← basic.run s.context }
  | .sleep duration => do Run.sleep duration; pure s
  | .yield => do Run.yield; pure s
  | .next => pure s
  | .logHandler => do Run.log (.note ((ahead.map Ahead.handler).getD "")); pure s
  | .logAhead => do
    match ahead with
    | some a => Run.log (.note a.shown)
    | none => pure ()
    pure s
  | .logResult => do Run.log (.result s.result); pure s
  | .respond response => do pure { s with result := .ok (.respond (← response)) }
  | .halt party none => pure { s with result := .ok (.halted party none) }
  | .halt party (some response) => do
    pure { s with result := .ok (.halted party (some (← response))) }
  | .fail f => pure { s with result := .error f }
  | .recover response =>
    match s.result with
    | .error _ => do pure { s with result := .ok (.respond (← response)) }
    | .ok _ => pure s
  | .attempt =>
    match s.result with
    | .error f => pure { s with result := .error (.fromHook f.message), returned := true }
    | .ok _ => pure s

/-- Take steps until the script returns. -/
def LayerStep.runAll (ahead : Option Ahead) : List LayerStep → LayerState → Run LayerState
  | [], s => pure s
  | first :: rest, s => do
    let s ← first.run ahead s
    if s.returned then pure s else runAll ahead rest s

/-- A scripted layer. Until a step says otherwise its result is a halt in the name of `wrap`. -/
def layer (called : List Step) (steps : List LayerStep) : Layer :=
  .hook fun ahead c => do
    atCall called
    let wayIn := steps.takeWhile fun s => !s.isNext
    let wayOut := (steps.dropWhile fun s => !s.isNext).drop 1
    let s ← LayerStep.runAll (some ahead) wayIn ⟨c, .ok (.halted "wrap" none), false⟩
    if s.returned || !steps.any LayerStep.isNext then pure (.answer s.result)
    else
      pure (.delegate s.context fun result => do
        let s ← LayerStep.runAll none wayOut ⟨∅, result, false⟩
        pure s.result)

inductive ActionStep where
  | step (s : Step)
  | sleep (duration : Nat)
  | yield

def ActionStep.run (c : Context) : ActionStep → Run Context
  | .step s => s.run c
  | .sleep duration => do Run.sleep duration; pure c
  | .yield => do Run.yield; pure c

/-- A scripted action, which ends with a value of some type that stands for a result. -/
def action {α : Type} [ToHandled α] (called : List Step) (steps : List ActionStep)
    (value : Context → Run α) : Action :=
  .of fun c => do
    atCall called
    value (← steps.foldlM ActionStep.run c)

end RequestFlow.Sample
