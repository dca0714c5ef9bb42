import RequestFlow.Config.Basic

/-!
# Servers

A server has an address to listen on and, perhaps, a status for halts without a response. Both are
given directly or by a configuration, which need not have been checked.
-/

namespace RequestFlow

/-- What a server needs to know before it listens. -/
structure Server where
  address : Net.SocketAddress
  /-- The status that answers a halt without a response. -/
  haltStatus : Option Status
deriving DecidableEq

inductive ServerError where
  | badAddress (text : String)
  | badConfig (fault : Config.Fault)
deriving DecidableEq, Repr

def ServerError.message : ServerError → String
  | .badAddress text => "invalid socket address `" ++ text ++ "`"
  | .badConfig fault => "config: " ++ fault.message

namespace Server

def bind (address : String) : Except ServerError Server :=
  match Net.SocketAddress.ofText? address with
  | some a => .ok ⟨a, none⟩
  | none => .error (.badAddress address)

def ofConfig (c : Config) : Except ServerError Server :=
  match c.address with
  | .error fault => .error (.badConfig fault)
  | .ok address =>
    match c.status with
    | .error fault => .error (.badConfig fault)
    | .ok status => .ok ⟨address, status⟩

/-- The server with another status for halts without a response. -/
def answerHaltsWith (s : Server) (status : Status) : Server := { s with haltStatus := some status }

end Server

end RequestFlow
