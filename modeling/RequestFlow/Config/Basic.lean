import RequestFlow.Controller
import RequestFlow.Net.Address
import RequestFlow.Response.Basic

/-!
# Server configuration

A configuration names the address to listen on, the status for halts without a response, and how
failures and long runs are treated. A configuration that can be written down may still be invalid:
`Config.check` finds the first of its faults, and `Config.check_eq_ok_iff` says when there is none.
-/

namespace RequestFlow

structure Config where
  /-- The address to listen on, as it was written. -/
  bind : String
  /-- The status code that answers a halt without a response. -/
  haltStatus : Option Nat
  /-- Whether failures are turned into responses. -/
  catchAll : Bool
  /-- The time limit of a whole run in milliseconds. -/
  requestTimeout : Option Nat
deriving DecidableEq, Repr

/-- What makes a configuration invalid. -/
inductive Config.Fault where
  | badAddress (text : String)
  | badStatus (code : Nat)
  | zeroTimeout
deriving DecidableEq, Repr

/-- Why no configuration could be loaded. -/
inductive ConfigError where
  /-- The file cannot be read, or it is not text. -/
  | unreadable
  /-- The text is no configuration. -/
  | malformed
  /-- The configuration is invalid. -/
  | invalid (fault : Config.Fault)
deriving DecidableEq, Repr

namespace Config

def default : Config := ⟨"0.0.0.0:3000", none, false, none⟩

instance : Inhabited Config := ⟨default⟩

def Fault.message : Fault → String
  | .badAddress text => "configuration validation failed: invalid bind address `" ++ text ++ "`"
  | .badStatus code => "configuration validation failed: invalid halt_status " ++ toString code
  | .zeroTimeout => "configuration validation failed: request_timeout_ms must be positive"

/-! ### Meaning -/

def address (c : Config) : Except Fault Net.SocketAddress :=
  match Net.SocketAddress.ofText? c.bind with
  | some a => .ok a
  | none => .error (.badAddress c.bind)

/-- The status that answers a halt without a response. -/
def status (c : Config) : Except Fault (Option Status) :=
  match c.haltStatus with
  | none => .ok none
  | some code =>
    match Status.ofNat? code with
    | some s => .ok (some s)
    | none => .error (.badStatus code)

/-- Look for faults: the address first, then the status, then the time limit. -/
def check (c : Config) : Except Fault Unit := do
  let _ ← c.address
  let _ ← c.status
  if c.requestTimeout = some 0 then .error .zeroTimeout else .ok ()

/-- A configuration is valid exactly if its address and its status mean something and its time limit
is not zero. -/
theorem check_eq_ok_iff (c : Config) :
    c.check = .ok () ↔
      (∃ a, c.address = .ok a) ∧ (∃ s, c.status = .ok s) ∧ c.requestTimeout ≠ some 0 := by
  rw [check]
  rcases c.address with f | a
  · exact ⟨nofun, fun ⟨⟨_, h⟩, _⟩ => nomatch h⟩
  rcases c.status with f | s
  · exact ⟨nofun, fun ⟨_, ⟨_, h⟩, _⟩ => nomatch h⟩
  change (if c.requestTimeout = some 0 then Except.error Fault.zeroTimeout else Except.ok ()) =
    Except.ok () ↔ _
  split <;> simp_all

/-- The layers that treat failures and long runs, as a concern: failures are caught outside of the
time limit. -/
def errorHandling (c : Config) : SetUp Concern := do
  let concern := (Concern.new "ErrorHandling").surround (← (Wrap.catchAll c.catchAll).entry)
  match c.requestTimeout with
  | some limit => pure (concern.surround (← (Wrap.timeout limit).entry))
  | none => pure concern

end Config

end RequestFlow
