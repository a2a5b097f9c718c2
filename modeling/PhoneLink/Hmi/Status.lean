import PhoneLink.Hmi.Mainapp
import Mathlib.Logic.Function.Basic
import Mathlib.Tactic.Common

/-!
# Status notices

Three statuses of the phone are passed on to the HMI: whether DaLink is in the
foreground, whether its main menu is, and the screen's direction. The last value
reported is remembered for each, and a report of the same value is not passed on. What
is remembered is the value reported, whether or not the HMI got it.

## Main definitions

* `StatusReporter.report`: the branch that all status handlers share
* `StatusReporter.InStep`: what is remembered is what the HMI was told last

## Main results

* `report_inStep_iff`: a report keeps the two in step exactly when a value that differs
  from the remembered one is delivered
* `written_report_iff`: a report writes its notice exactly when the value differs
-/

namespace PhoneLink

def dalinkForground : UInt8 := 0
def dalinkBackground : UInt8 := 1
def dalinkMainMenuForground : UInt8 := 0
def dalinkMainMenuBackground : UInt8 := 1
def hmiSendPhoneHorizontalCmd : UInt8 := 0
def hmiSendPhoneVerticalCmd : UInt8 := 1
def hmiSendPhoneScreenDefault : UInt8 := 2

/-- The remembered statuses: `phonelink_dalink_status`,
`phonelink_dalink_mainmenu_status` and `phonelink_dalink_screen_direction_status`. -/
inductive StatusKind
  | dalink
  | dalinkMainmenu
  | screenDirection
  deriving DecidableEq, Repr

namespace StatusKind

/-- The type of the notice. -/
def msgType : StatusKind → PlMsgType
  | dalink => .wmPlinkDalinkStatus
  | dalinkMainmenu => .wmPlinkDalinkMainmenuStatus
  | screenDirection => .wmPlinkScreenDirection

/-- The value remembered at start-up. -/
def atStartup : StatusKind → UInt8
  | dalink => dalinkBackground
  | dalinkMainmenu => dalinkMainMenuBackground
  | screenDirection => hmiSendPhoneScreenDefault

theorem msgType_injective : Function.Injective msgType := by
  intro kind kind' h
  cases kind <;> cases kind' <;> first | rfl | cases h

/-- The notice of a value. -/
def notice (kind : StatusKind) (value : UInt8) : MainappMsg := ⟨kind.msgType, [value]⟩

/-- The value of the last notice among the messages, or the one at start-up. -/
def lastWritten (kind : StatusKind) (written : List MainappMsg) : UInt8 :=
  ((written.filter fun msg => msg.msgType = kind.msgType).getLast?.bind
    fun msg => msg.msgBuf.head?).getD kind.atStartup

variable {kind kind' : StatusKind} {written : List MainappMsg} {value : UInt8}

/-- A message of another type changes nothing. -/
theorem lastWritten_concat_of_ne {msg : MainappMsg} (h : msg.msgType ≠ kind.msgType) :
    kind.lastWritten (written ++ [msg]) = kind.lastWritten written := by
  rw [lastWritten, List.filter_append, List.filter_cons_of_neg (by simpa using h),
    List.filter_nil, List.append_nil]
  rfl

theorem lastWritten_concat_notice :
    kind.lastWritten (written ++ [kind.notice value]) = value := by
  have hkeep : ([kind.notice value].filter fun msg => msg.msgType = kind.msgType) =
      [kind.notice value] := List.filter_cons_of_pos (by simp [notice])
  rw [lastWritten, List.filter_append, hkeep, List.getLast?_concat]
  rfl

/-- The last notice of every kind, after a notice. -/
theorem lastWritten_concat :
    kind'.lastWritten (written ++ [kind.notice value]) =
      Function.update (fun k => k.lastWritten written) kind value kind' := by
  rcases eq_or_ne kind' kind with rfl | hne
  · rw [lastWritten_concat_notice, Function.update_self]
  · have htype : (kind.notice value).msgType ≠ kind'.msgType :=
      fun heq => hne (msgType_injective heq).symm
    rw [lastWritten_concat_of_ne htype, Function.update_of_ne hne]

end StatusKind

open StatusKind

/-- `sendDalinkStatus`, `sendDalinkMainmenuStatus` and `send_screen_direction_status`. -/
def Mainapp.sendStatus (kind : StatusKind) (value : UInt8) : Mainapp → ℤ × Mainapp :=
  sendDataToMainapp (kind.notice value)

/-- The remembered statuses and the connection to the HMI. -/
structure StatusReporter where
  status : StatusKind → UInt8
  mainapp : Mainapp

namespace StatusReporter

/-- After `init_phone_link`, for any behaviour of the socket. -/
def start (writeResults : ℕ → Bool) : StatusReporter := ⟨atStartup, .start writeResults⟩

/-- Pass a status on if it differs from the remembered one, and remember it. -/
def report (kind : StatusKind) (value : UInt8) (r : StatusReporter) : StatusReporter :=
  if r.status kind ≠ value then
    -- nothing looks at the result of the send
    { status := Function.update r.status kind value
      mainapp := (r.mainapp.sendStatus kind value).2 }
  else r

/-- Each remembered status is the one of the last notice written. -/
def InStep (r : StatusReporter) : Prop :=
  ∀ kind : StatusKind, r.status kind = kind.lastWritten r.mainapp.written

variable {r : StatusReporter} {kind : StatusKind} {value : UInt8}

theorem inStep_start (writeResults : ℕ → Bool) : (start writeResults).InStep := fun _ => rfl

theorem report_of_eq (h : r.status kind = value) : r.report kind value = r :=
  if_neg (not_not_intro h)

theorem report_of_ne (h : r.status kind ≠ value) :
    r.report kind value = ⟨Function.update r.status kind value,
      (r.mainapp.sendStatus kind value).2⟩ := if_pos h

/-- After a report the value is remembered. -/
@[simp] theorem status_report :
    (r.report kind value).status = Function.update r.status kind value := by
  unfold report
  split_ifs with h
  · rfl
  · obtain rfl := not_not.mp h
    exact (Function.update_eq_self kind r.status).symm

/-- A report keeps memory and HMI in step exactly when a value that differs from the
remembered one is delivered. -/
theorem report_inStep_iff (h : r.InStep) :
    (r.report kind value).InStep ↔ (r.status kind ≠ value → r.mainapp.Delivers) := by
  by_cases hne : r.status kind = value
  · rw [report_of_eq hne]
    exact iff_of_true h fun hdiffers => absurd hne hdiffers
  · rw [report_of_ne hne, InStep]
    dsimp only
    rw [Mainapp.sendStatus, Mainapp.written_sendDataToMainapp]
    by_cases hdelivers : r.mainapp.Delivers
    · rw [if_pos hdelivers]
      refine iff_of_true (fun kind' => ?_) fun _ => hdelivers
      rw [lastWritten_concat, ← funext h]
    · -- the value is remembered, and the HMI still has the old one
      rw [if_neg hdelivers]
      refine iff_of_false (fun hall => hne ?_) fun hall => hdelivers (hall hne)
      have hkind := hall kind
      rw [Function.update_self] at hkind
      exact (h kind).trans hkind.symm

/-- Where a notice would be delivered, a report writes it exactly when the value is
not the remembered one. -/
theorem written_report_iff (hdelivers : r.mainapp.Delivers) :
    (r.report kind value).mainapp.written = r.mainapp.written ++ [kind.notice value] ↔
      r.status kind ≠ value := by
  by_cases hne : r.status kind = value
  · rw [report_of_eq hne]
    exact iff_of_false (by simp) (not_not_intro hne)
  · rw [report_of_ne hne]
    dsimp only
    rw [Mainapp.sendStatus, Mainapp.written_sendDataToMainapp, if_pos hdelivers]
    exact iff_of_true rfl hne

/-- A message that is no notice leaves memory and HMI in step. -/
theorem inStep_sendDataToMainapp {msg : MainappMsg}
    (hmsg : ∀ kind : StatusKind, msg.msgType ≠ kind.msgType) :
    InStep { r with mainapp := (r.mainapp.sendDataToMainapp msg).2 } ↔ r.InStep := by
  apply forall_congr'
  intro kind
  dsimp only
  rw [Mainapp.written_sendDataToMainapp]
  split_ifs with h
  · rw [lastWritten_concat_of_ne (hmsg kind)]
  · rfl

end StatusReporter

end PhoneLink
