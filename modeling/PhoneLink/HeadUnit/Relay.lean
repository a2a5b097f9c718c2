import PhoneLink.CS.Simulation
import PhoneLink.HeadUnit.Notices

/-!
# What the HMI is told

Every input has the program tell the HMI certain things: a status of the phone that has
changed, the phone's time, a request for the park state, the connection status as it is
confirmed or asked for. Each is offered to the socket once. As long as each input is dealt
with before the next, what the HMI receives in a run are the offers made while Miracast is
connected whose `write` succeeds, in order; the others are lost. A status that is asked for
while another thread is still telling a new one is not covered.

## Main definitions

* `HeadUnit.news`: the messages that an input has for the HMI
* `delivered`: what becomes of messages offered with Miracast connected or not

## Main results

* `Tells.sendAll`: what becomes of messages sent one after the other
* `written_to_the_hmi`: what a run of inputs, one after the other, writes to the HMI
-/

namespace PhoneLink

open CS CS.Transition

/-! ### Offers and deliveries -/

/-- What is written of messages, each offered while Miracast is connected or not; the calls
of `write` succeed as `writeResults` says. -/
def delivered : (ℕ → Bool) → List (MainappMsg × Bool) → List MainappMsg
  | _, [] => []
  | writeResults, (msg, connected) :: offers =>
    if connected then
      (if writeResults 0 then [msg] else []) ++ delivered (fun n => writeResults (n + 1)) offers
    else delivered writeResults offers

/-- How many of the offers come to a call of `write`. -/
def writes (offers : List (MainappMsg × Bool)) : ℕ := offers.countP Prod.snd

variable {writeResults : ℕ → Bool} {offers offers' : List (MainappMsg × Bool)}

theorem writes_cons (offer : MainappMsg × Bool) (offers : List (MainappMsg × Bool)) :
    writes (offer :: offers) = writes offers + if offer.2 then 1 else 0 := List.countP_cons

theorem writes_append (offers offers' : List (MainappMsg × Bool)) :
    writes (offers ++ offers') = writes offers + writes offers' := List.countP_append

theorem delivered_append (writeResults : ℕ → Bool) (offers offers' : List (MainappMsg × Bool)) :
    delivered writeResults (offers ++ offers') = delivered writeResults offers ++
      delivered (fun n => writeResults (n + writes offers)) offers' := by
  induction offers generalizing writeResults with
  | nil => rfl
  | cons offer offers ih =>
    rw [List.cons_append, delivered, delivered, writes_cons]
    split_ifs
    · rw [ih, List.append_assoc]
      simp only [Nat.add_assoc]
    · rw [ih, List.nil_append, List.nil_append]
      simp only [Nat.add_assoc]
    · rw [ih]
      rfl

/-- Between the two states the messages were offered. -/
structure Tells (m m' : Mainapp) (offers : List (MainappMsg × Bool)) : Prop where
  written_eq : m'.written = m.written ++ delivered m.writeResults offers
  writeResults_eq : m'.writeResults = fun n => m.writeResults (n + writes offers)

namespace Tells

variable {m m' m'' : Mainapp}

theorem refl (m : Mainapp) : Tells m m [] := ⟨(List.append_nil _).symm, rfl⟩

theorem trans (h : Tells m m' offers) (h' : Tells m' m'' offers') :
    Tells m m'' (offers ++ offers') where
  written_eq := by
    rw [h'.written_eq, h.written_eq, h.writeResults_eq, delivered_append, List.append_assoc]
  writeResults_eq := by
    rw [h'.writeResults_eq, h.writeResults_eq, writes_append]
    funext n
    exact congrArg m.writeResults (by omega)

end Tells

namespace Mainapp

/-- `send_data_to_mainapp` does not refuse. -/
def isConnected (m : Mainapp) : Bool := m.plMiracastStatus ≠ .miracastUnconnect

/-- Messages sent one after the other, whatever comes of them. -/
def sendAll (m : Mainapp) (msgs : List MainappMsg) : Mainapp :=
  msgs.foldl (fun m msg => (m.sendDataToMainapp msg).2) m

variable {m : Mainapp} {msg : MainappMsg}

theorem sendAll_append (m : Mainapp) (msgs msgs' : List MainappMsg) :
    m.sendAll (msgs ++ msgs') = (m.sendAll msgs).sendAll msgs' := List.foldl_append

@[simp] theorem plMiracastStatus_sendDataToMainapp :
    (m.sendDataToMainapp msg).2.plMiracastStatus = m.plMiracastStatus := by
  unfold sendDataToMainapp
  split_ifs <;> rfl

@[simp] theorem plMiracastStatus_sendAll (msgs : List MainappMsg) :
    (m.sendAll msgs).plMiracastStatus = m.plMiracastStatus := by
  induction msgs generalizing m with
  | nil => rfl
  | cons msg msgs ih => exact ih.trans plMiracastStatus_sendDataToMainapp

theorem tells_sendDataToMainapp (m : Mainapp) (msg : MainappMsg) :
    Tells m (m.sendDataToMainapp msg).2 [(msg, m.isConnected)] := by
  unfold sendDataToMainapp isConnected
  by_cases hconnected : m.plMiracastStatus = .miracastUnconnect
  · rw [if_pos hconnected, decide_eq_false (not_not_intro hconnected)]
    exact ⟨(List.append_nil _).symm, rfl⟩
  · rw [if_neg hconnected, decide_eq_true hconnected]
    dsimp only
    split_ifs with hwrite
    · refine ⟨?_, rfl⟩
      rw [delivered, if_pos rfl, if_pos hwrite]
      rfl
    · refine ⟨?_, rfl⟩
      rw [delivered, if_pos rfl, if_neg hwrite]
      exact (List.append_nil _).symm

/-- Each message is offered once, with Miracast as it is. -/
theorem tells_sendAll (m : Mainapp) (msgs : List MainappMsg) :
    Tells m (m.sendAll msgs) (msgs.map fun msg => (msg, m.isConnected)) := by
  induction msgs generalizing m with
  | nil => exact Tells.refl m
  | cons msg msgs ih =>
    have hconnected : (m.sendDataToMainapp msg).2.isConnected = m.isConnected := by
      rw [isConnected, plMiracastStatus_sendDataToMainapp]
      rfl
    have hrest := ih (m.sendDataToMainapp msg).2
    rw [hconnected] at hrest
    exact (m.tells_sendDataToMainapp msg).trans hrest

end Mainapp

/-! ### The messages an input has for the HMI -/

/-- The messages a command has for the HMI: a status that has changed, the phone's time, a
request for the park state. -/
def Command.news (status : StatusKind → UInt8) (c : Command) : List MainappMsg :=
  match c.status? with
  | some (kind, value) => if status kind ≠ value then [kind.notice value] else []
  | none => c.message?.toList

theorem Command.mainapp_onReporter (c : Command) (r : StatusReporter) :
    (c.onReporter r).mainapp = r.mainapp.sendAll (c.news r.status) := by
  unfold onReporter news
  cases c.status? with
  | none => cases c.message? <;> rfl
  | some report =>
    dsimp only
    unfold StatusReporter.report
    split_ifs <;> rfl

namespace PhoneConnection

/-- The statuses confirmed while the answer about a profile is looked at. -/
def confirmed (p : Profile) (answer : ℤ) (connected : Profile → Bool) : List PlConnectStatus :=
  if answer = 1 ∧ connected p then []
  else (confirmedStatus (Function.update connected p (answer = 1))).toList

/-- The statuses confirmed during an event, in order. -/
def confirmedAll (checkConnect : Profile → ℤ) (connected : Profile → Bool) :
    List PlConnectStatus :=
  let afterHfp := Function.update connected .hfp (checkConnect .hfp = 1)
  let afterHid := Function.update afterHfp .hid (checkConnect .hid = 1)
  confirmed .hfp (checkConnect .hfp) connected ++ confirmed .hid (checkConnect .hid) afterHfp ++
    confirmed .spp (checkConnect .spp) afterHid

/-- The message of a connection status. -/
def statusMsg (status : PlConnectStatus) : MainappMsg :=
  ⟨.wmPlinkConnectStatus, [status.toUInt8]⟩

variable {c : PhoneConnection} {p : Profile} {answer : ℤ} {m : Mainapp}

theorem confirmCurrentConnectState_eq (c : PhoneConnection) (m : Mainapp) :
    (c.confirmCurrentConnectState m).1.connected = c.connected ∧
      (c.confirmCurrentConnectState m).2 =
        m.sendAll ((confirmedStatus c.connected).toList.map statusMsg) := by
  unfold confirmCurrentConnectState
  cases confirmedStatus c.connected with
  | none => exact ⟨rfl, rfl⟩
  | some status => exact ⟨rfl, rfl⟩

theorem updateProfile_eq (p : Profile) (answer : ℤ) (c : PhoneConnection) (m : Mainapp) :
    (c.updateProfile p answer m).1.connected = Function.update c.connected p (answer = 1) ∧
      (c.updateProfile p answer m).2 =
        m.sendAll ((confirmed p answer c.connected).map statusMsg) := by
  unfold updateProfile confirmed
  dsimp only
  by_cases hanswer : answer = 1
  · rw [if_pos hanswer.symm, decide_eq_true hanswer]
    by_cases hlast : c.connected p = true
    · have hsame : Function.update c.connected p true p = c.connected p := by
        rw [Function.update_self, hlast]
      rw [if_neg (not_not_intro hsame), if_pos ⟨hanswer, hlast⟩]
      exact ⟨rfl, rfl⟩
    · have hchanged : Function.update c.connected p true p ≠ c.connected p := by
        rw [Function.update_self]
        exact Ne.symm hlast
      rw [if_pos hchanged, if_neg fun h => hlast h.2]
      exact confirmCurrentConnectState_eq _ m
  · rw [if_neg (Ne.symm hanswer), decide_eq_false hanswer, if_neg fun h => hanswer h.1]
    exact confirmCurrentConnectState_eq _ m

theorem mainapp_updatePairList (c : PhoneConnection) (m : Mainapp) (checkConnect : Profile → ℤ) :
    (updatePairList (c, m) checkConnect).2 =
      m.sendAll ((confirmedAll checkConnect c.connected).map statusMsg) := by
  unfold updatePairList
  dsimp only
  -- each profile is looked at where the one before it has left the connection
  obtain ⟨hhfp, hhfpSent⟩ := updateProfile_eq .hfp (checkConnect .hfp) c m
  generalize c.updateProfile .hfp (checkConnect .hfp) m = cm at hhfp hhfpSent ⊢
  obtain ⟨hhid, hhidSent⟩ := updateProfile_eq .hid (checkConnect .hid) cm.1 cm.2
  generalize cm.1.updateProfile .hid (checkConnect .hid) cm.2 = cm' at hhid hhidSent ⊢
  rw [(updateProfile_eq .spp (checkConnect .spp) cm'.1 cm'.2).2, hhid, hhidSent, hhfp, hhfpSent,
    confirmedAll, List.map_append, List.map_append, Mainapp.sendAll_append,
    Mainapp.sendAll_append]

end PhoneConnection

namespace HeadUnit

/-- The messages that an input has for the HMI, in order. -/
def news (s : HeadUnit) : HeadAction → List MainappMsg
  | .packet packetHeader len =>
    if len < (packetHeader btSppMessageLengthIndex).toNat + btSppMessagePacketLenExceptPlayload
    then []
    else (commandOf packetHeader).news s.reporter.status
  | .hmi .wmPlinkConnectStatusReq =>
    [PhoneConnection.statusMsg s.connection.gPhoneConnectedStatus]
  | .updatePairList checkConnect =>
    (PhoneConnection.confirmedAll checkConnect s.connection.connected).map
      PhoneConnection.statusMsg
  | .hmi _ | .touch .. | .doubleTouch .. | .timer => []

/-- Each message is offered with Miracast as it is. -/
def offered (s : HeadUnit) (a : HeadAction) : List (MainappMsg × Bool) :=
  (s.news a).map fun msg => (msg, s.reporter.mainapp.isConnected)

/-- What the HMI reports of Miracast. -/
def miracast? : HeadAction → Option PlMiracastConnectStatus
  | .hmi .wmPlinkMiracastConnect => some .miracastConnected
  | .hmi .wmPlinkMiracastDisconnect => some .miracastUnconnect
  | _ => none

variable (s : HeadUnit)

/-- **One input** sends what it has for the HMI, and may set the Miracast status. -/
theorem mainapp_step (a : HeadAction) : (s.step a).reporter.mainapp =
    match miracast? a with
    | some status => s.reporter.mainapp.setMiracastStatus status
    | none => s.reporter.mainapp.sendAll (s.news a) := by
  cases a with
  | packet packetHeader len =>
    dsimp only [miracast?, news]
    split_ifs with hlen
    · rw [step, dalinkSppPacketDeal, if_pos hlen]
      rfl
    · rw [step, dalinkSppPacketDeal, if_neg hlen]
      dsimp only
      rw [reporter_handle, reporter_acknowledge, Command.mainapp_onReporter]
  | hmi msgType => cases msgType <;> rfl
  | touch x y action tick tickAfter => rfl
  | doubleTouch x y action x1 y1 action1 tick tickAfter => rfl
  | updatePairList checkConnect => exact PhoneConnection.mainapp_updatePairList _ _ _
  | timer =>
    dsimp only [step]
    split_ifs <;> rfl

theorem tells_step (a : HeadAction) :
    Tells s.reporter.mainapp (s.step a).reporter.mainapp (s.offered a) := by
  rw [mainapp_step]
  cases hstatus : miracast? a with
  | none => exact Mainapp.tells_sendAll _ _
  | some status =>
    have hnews : s.news a = [] := by
      cases a with
      | hmi msgType => cases msgType <;> first | rfl | cases hstatus
      | _ => cases hstatus
    rw [offered, hnews]
    exact ⟨(List.append_nil _).symm, rfl⟩

theorem plMiracastStatus_step (a : HeadAction) :
    (s.step a).reporter.mainapp.plMiracastStatus =
      (miracast? a).getD s.reporter.mainapp.plMiracastStatus := by
  rw [mainapp_step]
  cases miracast? a with
  | none => exact Mainapp.plMiracastStatus_sendAll _
  | some status => rfl

end HeadUnit

/-- **What the HMI is told.** In every run of inputs dealt with one after the other, what is
written to the HMI are the messages that the inputs have for it, in order, of which those
offered while Miracast is not connected and those whose `write` fails are lost; and Miracast
is as the HMI last said. -/
theorem written_to_the_hmi (env : Environment) (acts : List HeadAction) :
    let s := HeadUnit.start env
    let t := run HeadUnit.step s acts
    t.reporter.mainapp.written =
        delivered env.writeResults (shownBy HeadUnit.step HeadUnit.offered s acts) ∧
      t.reporter.mainapp.plMiracastStatus =
        (lastOf HeadUnit.miracast? acts).getD .miracastUnconnect := by
  intro s t
  have htells : Tells s.reporter.mainapp t.reporter.mainapp
      (shownBy HeadUnit.step HeadUnit.offered s acts) :=
    run_shownBy (R := fun (s t : HeadUnit) offers =>
        Tells s.reporter.mainapp t.reporter.mainapp offers)
      (fun s => Tells.refl s.reporter.mainapp) (fun h h' => Tells.trans h h') HeadUnit.tells_step
      s acts
  exact ⟨htells.written_eq, run_getD_lastOf (fun s => s.reporter.mainapp.plMiracastStatus)
    HeadUnit.plMiracastStatus_step s acts⟩

end PhoneLink
