import RequestFlow.Config.Settings
import RequestFlow.Proofs.Pipeline.Containment
import RequestFlow.Proofs.Server.Dispatch
import RequestFlow.Server.Basic

/-!
# A configuration that was accepted can be used

The settings of a server are looked at in four places: when they are checked, when a server is made
of them, when that server answers a halt, and when the layers are made that treat failures and long
runs. These places agree. A text is accepted exactly if it writes a configuration without faults
(`Config.Valid`), and then a server can be made of it (`Config.Describes`), halts are answered as it
says (`Config.AnswersHalts`), and so are failures and long runs (`Config.Handles`).

For a configuration that nobody has checked, a server can be made exactly if its address and its
status mean something. The time limit plays no part in that.
-/

namespace RequestFlow

namespace Config

structure Valid (c : Config) : Prop where
  address : ∃ a, Net.SocketAddress.ofText? c.bind = some a
  status : ∀ code ∈ c.haltStatus, 100 ≤ code ∧ code ≤ 999
  timeout : c.requestTimeout ≠ some 0

/-- A server has the address and the status of a configuration. -/
structure Describes (c : Config) (s : Server) : Prop where
  address : Net.SocketAddress.ofText? c.bind = some s.address
  status : s.haltStatus.map Status.code = c.haltStatus

/-- With some status for halts, a halt without a response is answered as a configuration says: with
its status and no report, or with an internal error and one report of an error. -/
def AnswersHalts (c : Config) (haltStatus : Option Status) : Prop :=
  ∀ handler party,
    let answer : Run Response := Server.settle handler haltStatus (.ok (.halted party none))
    match c.haltStatus with
    | some code => ∃ status : Status, status.code = code ∧ answer = ⟨[], .ok (.bare status)⟩
    | none => ∃ n : Notice, n.level = .error ∧
      answer = ⟨Run.reports [n], .ok (.bare .internalServerError)⟩

/-- A concern treats failures and long runs as a configuration says. -/
structure Handles (c : Config) (concern : Concern) : Prop where
  name : concern.name = "ErrorHandling"
  guards : concern.guards = []
  /-- Failures are caught outermost, in the configured mode; a time limit follows if one is set. -/
  layers : concern.layers.map LayerEntry.layer =
    .catchAll c.catchAll :: (c.requestTimeout.map Layer.timeout).toList
  /-- An action that the time limit cuts is answered in its place, and the limit is reported. -/
  expiry : ∀ limit ∈ c.requestTimeout, ∀ (handler : String) (a : Action) (ctx : Context)
    (kept : List (Step Empty)), Step.cut? limit (a.call handler ctx).steps = some kept →
    ∃ n : Notice, n.message = "timed out" ∧ ("limit_ms", Json.ofNat limit) ∈ n.fields ∧
      ((Next.ofLayers handler concern.layers a).run ctx : Run Handled) =
        ⟨kept ++ Run.reports [n], .ok (.ok (.respond (.bare .gatewayTimeout)))⟩

variable {c : Config} {text : String} {fault : Fault}

/-! ### Checking -/

theorem address_eq_ok_iff {a : Net.SocketAddress} :
    c.address = .ok a ↔ Net.SocketAddress.ofText? c.bind = some a := by
  rw [address]
  cases Net.SocketAddress.ofText? c.bind <;> simp

theorem status_eq_ok_iff {s : Option Status} :
    c.status = .ok s ↔ s.map Status.code = c.haltStatus := by
  rw [status]
  cases c.haltStatus with
  | none => cases s <;> simp
  | some code =>
      simp only [Option.map_eq_some_iff, ← Status.ofNat?_eq_some_iff]
      split
      next status found => simp [found, eq_comm]
      next unknown => simp [unknown]

/-- A status is made of every code of three digits, and of no other. -/
theorem exists_status_iff :
    (∃ s : Option Status, c.status = .ok s) ↔ ∀ code ∈ c.haltStatus, 100 ≤ code ∧ code ≤ 999 := by
  simp only [status_eq_ok_iff]
  cases c.haltStatus with
  | none => exact ⟨fun _ => nofun, fun _ => ⟨none, rfl⟩⟩
  | some code =>
      constructor
      · rintro ⟨s, same⟩ code' mem
        obtain ⟨status, rfl, rfl⟩ := Option.map_eq_some_iff.1 (same.trans mem)
        have valid := status.valid
        omega
      · intro digits
        have valid : 100 ≤ code ∧ code < 1000 := by
          have := digits code rfl
          omega
        exact ⟨some ⟨code, valid⟩, rfl⟩

/-- The check finds no fault exactly if there is none. -/
theorem check_eq_ok_iff_valid : c.check = .ok () ↔ c.Valid := by
  rw [check_eq_ok_iff, exists_status_iff]
  simp only [address_eq_ok_iff]
  constructor
  · rintro ⟨address, status, timeout⟩
    exact ⟨address, status, timeout⟩
  · rintro ⟨address, status, timeout⟩
    exact ⟨address, status, timeout⟩

/-- A text is accepted exactly if it writes a configuration without faults. -/
theorem ofToml_eq_ok_iff : ofToml text = .ok c ↔ readToml? text = some c ∧ c.Valid := by
  rw [ofToml, ← check_eq_ok_iff_valid]
  cases readToml? text with
  | none => simp
  | some d =>
      simp only [Option.some.injEq]
      constructor
      · intro accepted
        split at accepted
        next faultless =>
          obtain rfl := Except.ok.inj accepted
          exact ⟨rfl, faultless⟩
        next => cases accepted
      · rintro ⟨rfl, faultless⟩
        rw [faultless]

/-- A configuration with a fault is refused for its first one. -/
theorem ofToml_of_not_valid (written : readToml? text = some c) (faulty : ¬ c.Valid) :
    ∃ fault, c.check = .error fault ∧ ofToml text = .error (.invalid fault) := by
  rw [ofToml, written]
  cases found : c.check with
  | ok _ => exact absurd (check_eq_ok_iff_valid.1 found) faulty
  | error fault => exact ⟨fault, rfl, by simp only [found]⟩

/-! ### The number of a setting -/

theorem lt_of_numberSetting? {width n : Nat} {setting : Option Setting}
    (read : numberSetting? ⟨false, width⟩ setting = some (some n)) : n < Nat.pow 2 width := by
  rw [numberSetting?.eq_def] at read
  split at read
  next => cases read
  next => cases read
  next m =>
    split at read
    next holds =>
      obtain rfl := Option.some.inj (Option.some.inj read)
      simp only [IntType.holds, IntType.least, IntType.bound, Bool.and_eq_true,
        decide_eq_true_eq] at holds
      have above : 0 ≤ m := holds.1
      have below : m < (Nat.pow 2 width : Nat) := holds.2
      omega
    next => cases read
  next => cases read

/-- A time limit that was read fits a word. -/
theorem requestTimeout_lt (written : readToml? text = some c) :
    ∀ limit ∈ c.requestTimeout, limit < Nat.pow 2 64 := by
  intro limit set
  simp only [readToml?, ofSettings?, Option.bind_eq_bind, Option.bind_eq_some_iff] at written
  obtain ⟨fields, _, bind, _, haltStatus, _, catchAll, _, requestTimeout, read, same⟩ := written
  obtain rfl := Option.some.inj same
  obtain rfl : requestTimeout = some limit := set
  exact lt_of_numberSetting? read

/-! ### Starting a server -/

theorem ofConfig_eq_ok_iff {s : Server} : Server.ofConfig c = .ok s ↔ c.Describes s := by
  have parts : c.Describes s ↔ c.address = .ok s.address ∧ c.status = .ok s.haltStatus := by
    rw [address_eq_ok_iff, status_eq_ok_iff]
    exact ⟨fun d => ⟨d.address, d.status⟩, fun d => ⟨d.1, d.2⟩⟩
  rw [parts, Server.ofConfig]
  cases c.address with
  | error fault => simp
  | ok a =>
      cases c.status with
      | error fault => simp
      | ok status =>
          obtain ⟨a', status'⟩ := s
          simp

/-- There is no server exactly if the address or the status means nothing. -/
theorem ofConfig_fails_iff :
    (∃ e, Server.ofConfig c = .error e) ↔
      (∀ a, Net.SocketAddress.ofText? c.bind ≠ some a) ∨
        ∃ code ∈ c.haltStatus, code < 100 ∨ 999 < code := by
  have fails : (∃ e, Server.ofConfig c = .error e) ↔
      ¬ ((∃ a, c.address = .ok a) ∧ ∃ s, c.status = .ok s) := by
    rw [Server.ofConfig]
    cases c.address <;> cases c.status <;> simp
  rw [fails, exists_status_iff]
  simp only [address_eq_ok_iff]
  constructor
  · intro unusable
    by_cases address : ∃ a, Net.SocketAddress.ofText? c.bind = some a
    · obtain ⟨code, outside⟩ := Classical.not_forall.1 fun status => unusable ⟨address, status⟩
      obtain ⟨set, outside⟩ := Classical.not_imp.1 outside
      exact .inr ⟨code, set, by omega⟩
    · exact .inl fun a found => address ⟨a, found⟩
  · rintro (address | ⟨code, set, outside⟩) ⟨⟨a, found⟩, status⟩
    · exact address a found
    · have digits := status code set
      omega

/-- The server of a configuration answers halts as it says. -/
theorem answersHalts_of_describes {s : Server} (describes : c.Describes s) :
    c.AnswersHalts s.haltStatus := by
  intro handler party
  rw [← describes.status]
  cases s.haltStatus with
  | some status => exact ⟨status, rfl, Server.settle_eq (.configured party status rfl)⟩
  | none => exact ⟨.haltUnanswered handler party, rfl, Server.settle_eq (.unanswered party rfl)⟩

/-! ### Treating failures and long runs -/

/-- Behind a catching layer in whatever mode, a time limit that cuts the action is answered and
reported. -/
theorem run_of_expiry (handler : String) (a : Action) (ctx : Context) (outer inner : HookId)
    (enabled : Bool) {limit : Nat} {kept : List (Step Empty)}
    (cut : Step.cut? limit (a.call handler ctx).steps = some kept) :
    ((Next.ofLayers handler [⟨outer, .catchAll enabled⟩, ⟨inner, .timeout limit⟩] a).run ctx :
      Run Handled) =
      ⟨kept ++ Run.reports [.timedOut handler (Layer.reportedMillis limit)],
        .ok (.ok (.respond (.bare .gatewayTimeout)))⟩ := by
  have limited : ((Next.ofLayers handler [⟨inner, .timeout limit⟩] a).run ctx : Run Handled) =
      ⟨kept ++ Run.reports [.timedOut handler (Layer.reportedMillis limit)],
        .ok (.ok (.respond (.bare .gatewayTimeout)))⟩ := by
    rw [Next.run_cons, Layer.around, Layer.returning_silent, Next.run_nil, Marked.limit, cut]
    rfl
  rw [Next.run_cons]
  cases enabled with
  | false => rw [Layer.around, Layer.returning_silent, limited]
  | true =>
      rw [Layer.around, Layer.returning_silent, limited]
      cases Layer.contains_contain handler _ with
      | passed o ends same => exact same
      | failed f ends answers => cases ends
      | panicked p ends answers => cases ends

/-- The error handling of a configuration is as it says. -/
theorem handles_errorHandling (fits : ∀ limit ∈ c.requestTimeout, limit < Nat.pow 2 64)
    (serial : UInt64) : c.Handles (c.errorHandling serial).1 := by
  obtain ⟨bind, haltStatus, enabled, requestTimeout⟩ := c
  cases requestTimeout with
  | none => exact ⟨rfl, rfl, rfl, nofun⟩
  | some limit =>
      refine ⟨rfl, rfl, rfl, ?_⟩
      intro limit' set handler a ctx kept cut
      obtain rfl : limit = limit' := Option.some.inj set
      refine ⟨.timedOut handler limit, rfl, List.mem_cons_of_mem _ List.mem_cons_self, ?_⟩
      -- The number that is reported is rounded down to a word, which changes none that fits.
      have run := fun outer inner => run_of_expiry handler a ctx outer inner enabled cut
      simp only [Layer.reportedMillis_of_lt (fits limit rfl)] at run
      exact run _ _

end Config

/-- A validated configuration is usable as it is written. A text is accepted exactly if it writes a
configuration with an address that means something, a status that is unset or has three digits, and
a time limit that is unset or not zero; what is written with a fault is refused as invalid and for
no other reason. Of an accepted configuration a server is made with that address and that status,
which answers halts as configured, and its error handling catches and limits runs as configured. Of
any other configuration, checked or not, there is no server exactly if its address or its status is
invalid, and its error handling is as configured if its time limit fits a word. -/
theorem validated_config_usable (text : String) :
    (∀ c, Config.ofToml text = .ok c ↔ Config.readToml? text = some c ∧ c.Valid) ∧
    (∀ c, Config.readToml? text = some c → ¬ c.Valid →
      ∃ fault, c.check = .error fault ∧ Config.ofToml text = .error (.invalid fault)) ∧
    (∀ c, Config.ofToml text = .ok c →
      (∃ s, Server.ofConfig c = .ok s ∧ c.Describes s ∧ c.AnswersHalts s.haltStatus) ∧
      ∀ serial, c.Handles (c.errorHandling serial).1) ∧
    ∀ c : Config,
      ((∃ e, Server.ofConfig c = .error e) ↔
        (∀ a, Net.SocketAddress.ofText? c.bind ≠ some a) ∨
          ∃ code ∈ c.haltStatus, code < 100 ∨ 999 < code) ∧
      ((∀ limit ∈ c.requestTimeout, limit < Nat.pow 2 64) →
        ∀ serial, c.Handles (c.errorHandling serial).1) := by
  refine ⟨fun c => Config.ofToml_eq_ok_iff, fun c => Config.ofToml_of_not_valid, ?_, ?_⟩
  · intro c accepted
    obtain ⟨written, valid⟩ := Config.ofToml_eq_ok_iff.1 accepted
    refine ⟨?_, Config.handles_errorHandling (Config.requestTimeout_lt written)⟩
    obtain ⟨a, address⟩ := valid.address
    obtain ⟨status, known⟩ := Config.exists_status_iff.2 valid.status
    have describes : c.Describes ⟨a, status⟩ := ⟨address, Config.status_eq_ok_iff.1 known⟩
    exact ⟨⟨a, status⟩, Config.ofConfig_eq_ok_iff.2 describes, describes,
      Config.answersHalts_of_describes describes⟩
  · intro c
    exact ⟨Config.ofConfig_fails_iff, Config.handles_errorHandling⟩

/-- A text that sets everything but the address: its server answers halts with its status, and its
time limit cuts an action that sleeps for longer. -/
theorem validated_config_usable_when_set :
    let text := "halt_status = 204\ncatch_all = true\nrequest_timeout_ms = 1500\n"
    let c : Config := ⟨"0.0.0.0:3000", some 204, true, some 1500⟩
    Config.readToml? text = some c ∧ c.Valid ∧ Config.ofToml text = .ok c ∧
      ∃ s, Server.ofConfig c = .ok s ∧ s.haltStatus.map Status.code = some 204 ∧
        c.AnswersHalts s.haltStatus ∧ c.Handles (c.errorHandling 0).1 := by
  intro text c
  have written : Config.readToml? text = some c := by decide +kernel
  have valid : c.Valid := by
    refine ⟨⟨.v4 ⟨0, 0, 0, 0⟩ 3000, by decide +kernel⟩, ?_, nofun⟩
    intro code set
    obtain rfl : 204 = code := Option.some.inj set
    decide
  obtain ⟨accepted, _, usable, _⟩ := validated_config_usable text
  have ok := (accepted c).2 ⟨written, valid⟩
  obtain ⟨⟨s, made, describes, halts⟩, handles⟩ := usable c ok
  exact ⟨written, valid, ok, s, made, describes.status, halts, handles 0⟩

end RequestFlow
