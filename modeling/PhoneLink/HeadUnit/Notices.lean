import PhoneLink.HeadUnit.Machine

/-!
# Notices

What the HMI is told of the three statuses over whole runs. A status is remembered as
it is reported, so a notice that is not delivered is lost, and a value asked for by the
HMI is answered only if it has changed.

## Main definitions

* `lastReported`: the value of the last frame about a status
* `NoticeDelivered`: a step that changes a remembered status reaches the HMI

## Main results

* `status_run`: what is remembered is what was reported last
* `notices_in_step_iff`: the remembered statuses are those the HMI was told last in the
  runs whose notices are all delivered, and in no others
* `status_request_answered_iff`: the answer to a request is passed on exactly if it
  differs from what was reported last
-/

namespace PhoneLink

open CS CS.Transition

/-! ### What is remembered -/

/-- The value a command reports for a status. -/
def Command.reports (kind : StatusKind) (c : Command) : Option UInt8 :=
  c.status?.bind fun report => if report.1 = kind then some report.2 else none

/-- The value reported last for a status, or the one at start-up. -/
def lastReported (kind : StatusKind) (cs : List Command) : UInt8 :=
  (lastOf (Command.reports kind) cs).getD kind.atStartup

namespace Command

variable {c : Command} {r : StatusReporter} {kind : StatusKind} {value : UInt8}

theorem onReporter_of_some (h : c.status? = some (kind, value)) :
    c.onReporter r = r.report kind value := by
  rw [onReporter, h]

/-- A command that reports no status leaves all of them. -/
theorem status_onReporter_of_none (h : c.status? = none) :
    (c.onReporter r).status = r.status := by
  rw [onReporter, h]
  cases c.message? <;> rfl

theorem status_onReporter :
    (c.onReporter r).status kind = (c.reports kind).getD (r.status kind) := by
  rw [reports]
  cases hstatus : c.status? with
  | none =>
    rw [status_onReporter_of_none hstatus]
    rfl
  | some report =>
    rw [onReporter_of_some hstatus, StatusReporter.status_report, Option.bind_some]
    by_cases hkind : report.1 = kind
    · obtain rfl := hkind
      rw [Function.update_self, if_pos rfl]
      rfl
    · rw [Function.update_of_ne (Ne.symm hkind), if_neg hkind]
      rfl

end Command

/-- One more command. -/
theorem lastReported_concat {kind : StatusKind} {cs : List Command} {c : Command} :
    lastReported kind (cs ++ [c]) = (c.reports kind).getD (lastReported kind cs) := by
  rw [lastReported]
  cases hreports : c.reports kind with
  | none =>
    rw [lastOf_concat_of_none hreports]
    rfl
  | some value =>
    rw [lastOf_concat_of_some hreports]
    rfl

/-- In every run, what is remembered of a status is what was reported last. -/
theorem status_run (env : Environment) (acts : List HeadAction) (kind : StatusKind) :
    (run HeadUnit.step (.start env) acts).reporter.status kind =
      lastReported kind (commands acts) := by
  induction acts using List.reverseRecOn with
  | nil => rfl
  | append_singleton acts a ih =>
    rw [run_concat]
    cases hcommand : a.command? with
    | none => rw [HeadUnit.status_step hcommand, commands_concat_of_none hcommand, ih]
    | some c =>
      rw [HeadUnit.reporter_step hcommand, Command.status_onReporter, ih,
        commands_concat_of_some hcommand, lastReported_concat]

/-! ### What the HMI was told -/

/-- A message that a command brings about beside the notices is none itself. -/
theorem Command.message_ne_notice {c : Command} {msg : MainappMsg} (h : c.message? = some msg)
    (kind : StatusKind) : msg.msgType ≠ kind.msgType := by
  cases c with
  | phoneSystemTime time =>
    obtain rfl := Option.some.inj h
    cases kind <;> simp [StatusKind.msgType]
  | requestparkstate =>
    obtain rfl := Option.some.inj h
    cases kind <;> simp [StatusKind.msgType]
  | _ => cases h

theorem Command.inStep_onReporter_of_none {c : Command} {r : StatusReporter}
    (h : c.status? = none) : (c.onReporter r).InStep ↔ r.InStep := by
  rw [onReporter, h]
  cases hmessage : c.message? with
  | none => exact Iff.rfl
  | some msg => exact StatusReporter.inStep_sendDataToMainapp (message_ne_notice hmessage)

section InStep

variable {status : StatusKind → UInt8} {m : Mainapp} {connection : PhoneConnection}

/-- The connection status is no notice. -/
theorem inStep_sendConnectStautus {connectStatus : PlConnectStatus} :
    StatusReporter.InStep ⟨status, (m.sendConnectStautus connectStatus).2⟩ ↔
      StatusReporter.InStep ⟨status, m⟩ := by
  refine StatusReporter.inStep_sendDataToMainapp (r := ⟨status, m⟩) fun kind => ?_
  cases kind <;> simp [StatusKind.msgType]

theorem inStep_confirmCurrentConnectState :
    StatusReporter.InStep ⟨status, (connection.confirmCurrentConnectState m).2⟩ ↔
      StatusReporter.InStep ⟨status, m⟩ := by
  unfold PhoneConnection.confirmCurrentConnectState
  cases confirmedStatus connection.connected with
  | none => exact Iff.rfl
  | some connectStatus => exact inStep_sendConnectStautus

theorem inStep_updateProfile {p : Profile} {answer : ℤ} :
    StatusReporter.InStep ⟨status, (connection.updateProfile p answer m).2⟩ ↔
      StatusReporter.InStep ⟨status, m⟩ := by
  dsimp only [PhoneConnection.updateProfile]
  split_ifs
  · exact inStep_confirmCurrentConnectState
  · exact Iff.rfl
  · exact inStep_confirmCurrentConnectState

theorem inStep_updatePairList {checkConnect : Profile → ℤ} :
    StatusReporter.InStep
        ⟨status, (PhoneConnection.updatePairList (connection, m) checkConnect).2⟩ ↔
      StatusReporter.InStep ⟨status, m⟩ := by
  rw [PhoneConnection.updatePairList]
  dsimp only
  rw [inStep_updateProfile, inStep_updateProfile, inStep_updateProfile]

end InStep

namespace HeadUnit

variable {s : HeadUnit} {a : HeadAction}

/-- Without a command the HMI is told nothing about the statuses. -/
theorem inStep_step_of_none (h : a.command? = none) :
    (s.step a).reporter.InStep ↔ s.reporter.InStep := by
  cases a with
  | packet packetHeader len => rw [step_packet_of_none h]
  | hmi msgType =>
    cases msgType with
    | wmPlinkConnectStatusReq => exact inStep_sendConnectStautus
    | _ => exact Iff.rfl
  | updatePairList checkConnect => exact inStep_updatePairList
  | timer =>
    dsimp only [step]
    split_ifs <;> exact Iff.rfl
  | _ => exact Iff.rfl

end HeadUnit

/-- If the step handles a report of a value that is not the remembered one, its notice
reaches the HMI. -/
def NoticeDelivered (s : HeadUnit) (a : HeadAction) : Prop :=
  ∀ c kind value, a.command? = some c → c.status? = some (kind, value) →
    s.reporter.status kind ≠ value → s.reporter.mainapp.Delivers

theorem inStep_step_iff {s : HeadUnit} {a : HeadAction} (h : s.reporter.InStep) :
    (s.step a).reporter.InStep ↔ NoticeDelivered s a := by
  cases hcommand : a.command? with
  | none =>
    refine iff_of_true ((HeadUnit.inStep_step_of_none hcommand).mpr h) ?_
    intro c kind value hc
    rw [hcommand] at hc
    cases hc
  | some c =>
    rw [HeadUnit.reporter_step hcommand]
    cases hstatus : c.status? with
    | none =>
      refine iff_of_true ((Command.inStep_onReporter_of_none hstatus).mpr h) ?_
      intro c' kind value hc hreport
      obtain rfl := Option.some.inj (hcommand.symm.trans hc)
      rw [hstatus] at hreport
      cases hreport
    | some report =>
      rw [Command.onReporter_of_some hstatus, StatusReporter.report_inStep_iff h]
      constructor
      · intro hdelivered c' kind value hc hreport
        obtain rfl := Option.some.inj (hcommand.symm.trans hc)
        obtain rfl := Option.some.inj (hstatus.symm.trans hreport)
        exact hdelivered
      · intro hdelivered
        exact hdelivered c report.1 report.2 hcommand hstatus

/-- **Notices.** In every run, the remembered statuses are in every state those of the
last notices written, exactly when every report of a value that is not the remembered
one comes while Miracast is connected and the write succeeds. -/
theorem notices_in_step_iff (env : Environment) (acts : List HeadAction) :
    Throughout HeadUnit.step (fun _ _ t => t.reporter.InStep) (.start env) acts ↔
      Throughout HeadUnit.step (fun s a _ => NoticeDelivered s a) (.start env) acts :=
  throughout_holds_iff (fun s : HeadUnit => s.reporter.InStep) (fun _ _ => inStep_step_iff)
    (StatusReporter.inStep_start env.writeResults) acts

/-- DaLink comes to the foreground before Miracast is connected: the HMI is not told, and
the next report of the same is taken for known. -/
theorem report_before_miracast_is_lost :
    let acts := [.phonestate btSppMessagePhoneDalinkAppState 0, .hmi .wmPlinkMiracastConnect,
      .phonestate btSppMessagePhoneDalinkAppState 0]
    ¬ Throughout HeadUnit.step (fun _ _ t => t.reporter.InStep) (.start (.quiet .exact)) acts ∧
      (run HeadUnit.step (.start (.quiet .exact)) acts).reporter.mainapp.written = [] ∧
      (run HeadUnit.step (.start (.quiet .exact)) acts).reporter.status .dalink =
        dalinkForground := by
  refine ⟨fun hinStep => ?_, by decide +kernel, by decide +kernel⟩
  have hdalink := hinStep.1 .dalink
  revert hdalink
  decide +kernel

/-! ### Requests of the HMI -/

namespace StatusKind

/-- The message that asks for a status. -/
def request : StatusKind → PlMsgType
  | dalink => .wmPlinkDalinkStatusReq
  | dalinkMainmenu => .wmPlinkDalinkMainmenuStatusReq
  | screenDirection => .wmPlinkScreenDirectionReq

/-- The state that the phone is asked for. -/
def phoneStateClass : StatusKind → UInt8
  | dalink => btSppMessagePhoneDalinkAppState
  | dalinkMainmenu => btSppMessageDalinkMainmenuStatusState
  | screenDirection => btSppMessagePhoneDirection

end StatusKind

/-- A request of the HMI becomes a frame that asks the phone. -/
theorem sent_request (s : HeadUnit) (kind : StatusKind) :
    ∃ n, 1 ≤ n ∧ (s.step (.hmi kind.request)).spp.sent = s.spp.sent ++ List.replicate n
      ((Request.requestPhonestate kind.phoneStateClass).frame s.spp.tranID).bytes := by
  have hsend : (s.step (.hmi kind.request)).spp =
      s.spp.sendCreated (.requestPhonestate kind.phoneStateClass) := by
    cases kind <;> exact SppSender.plDalinkSendPacket_eq _ _
  obtain ⟨n, hpos, -, -, hsent⟩ :=
    SppSender.sent_sendCreated (.requestPhonestate kind.phoneStateClass) s.spp
  exact ⟨n, hpos, hsend ▸ hsent⟩

/-- **Requests.** After a request of the HMI, and whatever comes between, the phone's
answer is passed on exactly if its value is not the one reported last. -/
theorem status_request_answered_iff (env : Environment) (before between : List HeadAction)
    (kind : StatusKind) (answer : HeadAction) (c : Command) (value : UInt8)
    (hanswer : answer.command? = some c) (hvalue : c.status? = some (kind, value))
    (hdelivers : (run HeadUnit.step (.start env)
      (before ++ .hmi kind.request :: between)).reporter.mainapp.Delivers) :
    let s := run HeadUnit.step (.start env) before
    let t := run HeadUnit.step (.start env) (before ++ .hmi kind.request :: between)
    (∃ n, 1 ≤ n ∧ (s.step (.hmi kind.request)).spp.sent = s.spp.sent ++ List.replicate n
      ((Request.requestPhonestate kind.phoneStateClass).frame s.spp.tranID).bytes) ∧
      ((t.step answer).reporter.mainapp.written =
        t.reporter.mainapp.written ++ [kind.notice value] ↔
        lastReported kind (commands before ++ commands between) ≠ value) := by
  intro s t
  refine ⟨sent_request s kind, ?_⟩
  have hcommands : commands (before ++ .hmi kind.request :: between) =
      commands before ++ commands between := List.filterMap_append
  rw [HeadUnit.reporter_step hanswer, Command.onReporter_of_some hvalue,
    StatusReporter.written_report_iff hdelivers, status_run, hcommands]

/-- A first request, answered with the foreground. -/
theorem status_request_answered_iff_first :
    let s := run HeadUnit.step (.start (.quiet .exact)) [.hmi .wmPlinkMiracastConnect]
    let t := run HeadUnit.step (.start (.quiet .exact))
      ([.hmi .wmPlinkMiracastConnect] ++ .hmi .wmPlinkDalinkStatusReq :: [])
    (∃ n, 1 ≤ n ∧ (s.step (.hmi .wmPlinkDalinkStatusReq)).spp.sent = s.spp.sent ++
      List.replicate n ((Request.requestPhonestate btSppMessagePhoneDalinkAppState).frame
        s.spp.tranID).bytes) ∧
      ((t.step (.phonestate btSppMessagePhoneDalinkAppState 0)).reporter.mainapp.written =
        t.reporter.mainapp.written ++ [StatusKind.dalink.notice dalinkForground] ↔
        lastReported .dalink (commands [.hmi .wmPlinkMiracastConnect] ++ commands []) ≠
          dalinkForground) :=
  status_request_answered_iff (.quiet .exact) [.hmi .wmPlinkMiracastConnect] [] .dalink
    (.phonestate btSppMessagePhoneDalinkAppState 0) (.phoneDalinkAppState 0) dalinkForground
    (by decide +kernel) rfl (by decide +kernel)

/-- The phone has reported the foreground once; the HMI asks, the phone answers the same,
and nothing is written. -/
theorem repeated_status_not_answered :
    let t := run HeadUnit.step (.start (.quiet .exact))
      [.hmi .wmPlinkMiracastConnect, .phonestate btSppMessagePhoneDalinkAppState 0,
        .hmi .wmPlinkDalinkStatusReq]
    t.reporter.mainapp.Delivers ∧
      (HeadAction.phonestate btSppMessagePhoneDalinkAppState 0).command? =
        some (.phoneDalinkAppState 0) ∧
      (t.step (.phonestate btSppMessagePhoneDalinkAppState 0)).reporter.mainapp.written =
        t.reporter.mainapp.written := by
  decide +kernel

end PhoneLink
