import PhoneLink.CS.Run
import PhoneLink.Hmi.Mainapp
import Mathlib.Data.Fintype.Pi
import Mathlib.Logic.Function.Basic
import Mathlib.Tactic.Common

/-!
# The connection status

On `BT_MSG_UPDATE_PAIR_LIST` the Bluetooth message thread asks for the state of HFP,
HID and SPP, one after the other, and confirms a status in between. There are statuses
for no profile, for any two and for all three; with exactly one profile connected
nothing is confirmed, and the status stays that of an earlier combination.

## Main definitions

* `PhoneConnection.updatePairList`: one event
* `settle`: a combination of connected profiles together with the last one passed
  through that has a status

## Main results

* `confirmedStatus_eq_some_iff`: a confirmed status names exactly the connected profiles
* `Settled.updateProfile`: the status is always that of the settled combination
* `connection_status_iff`: when the status is true, and when it depends on the history
-/

namespace PhoneLink

open CS.Transition

inductive Profile
  | hfp
  | hid
  | spp
  deriving DecidableEq, Repr

instance : Fintype Profile := ⟨{.hfp, .hid, .spp}, by intro p; cases p <;> decide⟩

/-- The value sent is the position in this list. -/
inductive PlConnectStatus
  | btUnconnect
  | btConnectedHfpHid
  | btConnectedHfpSpp
  | btConnectedHidSpp
  | btConnected
  deriving DecidableEq, Repr

instance : Fintype PlConnectStatus :=
  ⟨{.btUnconnect, .btConnectedHfpHid, .btConnectedHfpSpp, .btConnectedHidSpp, .btConnected}, by
    intro status; cases status <;> decide⟩

def PlConnectStatus.toUInt8 : PlConnectStatus → UInt8
  | btUnconnect => 0x00
  | btConnectedHfpHid => 0x01
  | btConnectedHfpSpp => 0x02
  | btConnectedHidSpp => 0x03
  | btConnected => 0x04

/-- The profiles a status names as connected. -/
def PlConnectStatus.names : PlConnectStatus → Profile → Bool
  | btUnconnect, _ => false
  | btConnectedHfpHid, p => p ≠ .spp
  | btConnectedHfpSpp, p => p ≠ .hid
  | btConnectedHidSpp, p => p ≠ .hfp
  | btConnected, _ => true

def Mainapp.sendConnectStautus (status : PlConnectStatus) : Mainapp → ℤ × Mainapp :=
  sendDataToMainapp ⟨.wmPlinkConnectStatus, [status.toUInt8]⟩

/-! ### The program -/

/-- Of each profile's states two are ever stored: connected, and the one at start-up. -/
structure PhoneConnection where
  connected : Profile → Bool
  gPhoneConnectedStatus : PlConnectStatus

/-- The status that `confirm_current_connect_state` finds, if one of its branches
applies. -/
def confirmedStatus (connected : Profile → Bool) : Option PlConnectStatus :=
  if ¬ connected .spp ∧ ¬ connected .hfp ∧ ¬ connected .hid then some .btUnconnect
  else if ¬ connected .spp ∧ connected .hfp ∧ connected .hid then some .btConnectedHfpHid
  else if connected .spp ∧ connected .hfp ∧ ¬ connected .hid then some .btConnectedHfpSpp
  else if connected .spp ∧ ¬ connected .hfp ∧ connected .hid then some .btConnectedHidSpp
  else if connected .spp ∧ connected .hfp ∧ connected .hid then some .btConnected
  else none

namespace PhoneConnection

/-- Program start. -/
def start : PhoneConnection := ⟨fun _ => false, .btUnconnect⟩

def confirmCurrentConnectState (c : PhoneConnection) (m : Mainapp) : PhoneConnection × Mainapp :=
  match confirmedStatus c.connected with
  | some status => ({ c with gPhoneConnectedStatus := status }, (m.sendConnectStautus status).2)
  | none => (c, m)

/-- The part of an event about one profile, with the answer of `check_Connect`. -/
def updateProfile (p : Profile) (answer : ℤ) (c : PhoneConnection) (m : Mainapp) :
    PhoneConnection × Mainapp :=
  let last := c.connected p
  if 1 = answer then
    let c := { c with connected := Function.update c.connected p true }
    if c.connected p ≠ last then c.confirmCurrentConnectState m else (c, m)
  else
    let c := { c with connected := Function.update c.connected p false }
    c.confirmCurrentConnectState m

/-- One `BT_MSG_UPDATE_PAIR_LIST` event. -/
def updatePairList (cm : PhoneConnection × Mainapp) (checkConnect : Profile → ℤ) :
    PhoneConnection × Mainapp :=
  let cm := updateProfile .hfp (checkConnect .hfp) cm.1 cm.2
  let cm := updateProfile .hid (checkConnect .hid) cm.1 cm.2
  updateProfile .spp (checkConnect .spp) cm.1 cm.2

/-- The status names only connected profiles. -/
def Truthful (c : PhoneConnection) : Prop :=
  ∀ p, c.gPhoneConnectedStatus.names p = true → c.connected p = true

end PhoneConnection

/-! ### Combinations with a status -/

variable {connected : Profile → Bool} {status status' : PlConnectStatus}

def ExactlyOne (connected : Profile → Bool) : Prop := ∃ p, ∀ q, connected q = true ↔ q = p

instance (connected : Profile → Bool) : Decidable (ExactlyOne connected) :=
  inferInstanceAs (Decidable (∃ p, ∀ q, connected q = true ↔ q = p))

/-- A confirmed status names exactly the connected profiles. -/
theorem confirmedStatus_eq_some_iff :
    confirmedStatus connected = some status ↔ status.names = connected := by
  constructor
  · revert connected status
    decide
  · rintro rfl
    cases status <;> rfl

theorem names_injective : Function.Injective PlConnectStatus.names := by
  intro status status' h
  have hstatus := confirmedStatus_eq_some_iff.mpr h
  rw [confirmedStatus_eq_some_iff.mpr rfl] at hstatus
  exact (Option.some.inj hstatus).symm

/-- Exactly the combinations of one profile have no status. -/
theorem confirmedStatus_eq_none_iff : confirmedStatus connected = none ↔ ExactlyOne connected := by
  revert connected
  decide

/-! ### What the answers alone say -/

def noneConnected : Profile → Bool := fun _ => false

/-- A combination of connected profiles, and the last one passed through that was not
of exactly one. -/
structure Combination where
  current : Profile → Bool
  settled : Profile → Bool

namespace Combination

def start : Combination := ⟨noneConnected, noneConnected⟩

/-- One profile found connected or not. -/
def settle (k : Combination) (p : Profile) (found : Bool) : Combination :=
  let current := Function.update k.current p found
  ⟨current, if ExactlyOne current then k.settled else current⟩

/-- One event, from the answers of `check_Connect`. -/
def event (k : Combination) (checkConnect : Profile → ℤ) : Combination :=
  let k := k.settle .hfp (checkConnect .hfp = 1)
  let k := k.settle .hid (checkConnect .hid = 1)
  k.settle .spp (checkConnect .spp = 1)

end Combination

/-- The program has stored the current combination, and its status is the settled one's. -/
structure Settled (c : PhoneConnection) (k : Combination) : Prop where
  connected_eq : c.connected = k.current
  names_eq : c.gPhoneConnectedStatus.names = k.settled
  settled_eq : ¬ ExactlyOne k.current → k.settled = k.current

namespace Settled

variable {c : PhoneConnection} {k : Combination} {p : Profile}

theorem start : Settled .start .start := ⟨rfl, rfl, fun _ => rfl⟩

/-- Confirming settles a combination that has a status, and no other. -/
theorem confirm {settled : Profile → Bool} (hnames : status.names = settled) (m : Mainapp) :
    Settled (PhoneConnection.confirmCurrentConnectState ⟨connected, status⟩ m).1
      ⟨connected, if ExactlyOne connected then settled else connected⟩ := by
  unfold PhoneConnection.confirmCurrentConnectState
  dsimp only
  cases h : confirmedStatus connected with
  | none =>
    have hone := confirmedStatus_eq_none_iff.mp h
    rw [if_pos hone]
    exact ⟨rfl, hnames, fun hnot => absurd hone hnot⟩
  | some status =>
    have hnot : ¬ ExactlyOne connected := by
      rw [← confirmedStatus_eq_none_iff, h]
      exact Option.some_ne_none status
    rw [if_neg hnot]
    exact ⟨rfl, confirmedStatus_eq_some_iff.mp h, fun _ => rfl⟩

/-- The part of an event about one profile, confirmed or not. -/
theorem updateProfile (h : Settled c k) (answer : ℤ) (m : Mainapp) :
    Settled (c.updateProfile p answer m).1 (k.settle p (answer = 1)) := by
  unfold PhoneConnection.updateProfile Combination.settle
  rw [← h.connected_eq]
  dsimp only
  by_cases hanswer : answer = 1
  · rw [if_pos hanswer.symm, decide_eq_true hanswer]
    by_cases hchanged : Function.update c.connected p true p = c.connected p
    · -- nothing changed, so the combination settled before, if it has a status
      rw [if_neg (not_not_intro hchanged)]
      rw [Function.update_self] at hchanged
      rw [hchanged, Function.update_eq_self]
      refine ⟨rfl, ?_, fun hnot => if_neg hnot⟩
      dsimp only
      split_ifs with hone
      · exact h.names_eq
      · rw [h.names_eq, h.settled_eq (h.connected_eq ▸ hone), h.connected_eq]
    · rw [if_pos hchanged]
      exact confirm h.names_eq m
  · rw [if_neg (Ne.symm hanswer), decide_eq_false hanswer]
    exact confirm h.names_eq m

theorem updatePairList {cm : PhoneConnection × Mainapp} (h : Settled cm.1 k)
    (checkConnect : Profile → ℤ) :
    Settled (PhoneConnection.updatePairList cm checkConnect).1 (k.event checkConnect) :=
  ((h.updateProfile _ _).updateProfile _ _).updateProfile _ _

/-- The status is that of the settled combination after every run. -/
theorem run (m : Mainapp) (events : List (Profile → ℤ)) :
    Settled (CS.Transition.run PhoneConnection.updatePairList (.start, m) events).1
      (CS.Transition.run Combination.event .start events) := by
  induction events using List.reverseRecOn with
  | nil => exact start
  | append_singleton events checkConnect ih =>
    rw [run_concat, run_concat]
    exact ih.updatePairList checkConnect

/-- A status that names no profile that is not connected: the settled combination is the
current one, or is empty. -/
theorem truthful_iff (h : Settled c k) :
    c.Truthful ↔ (ExactlyOne k.current → k.settled = noneConnected) := by
  rw [PhoneConnection.Truthful, h.connected_eq]
  constructor
  · rintro htruthful ⟨p, hp⟩
    -- no status names exactly one profile, so this one names none
    by_contra hsome
    have hstatus := confirmedStatus_eq_some_iff.mpr h.names_eq
    have hnot : ¬ ExactlyOne k.settled := by
      rw [← confirmedStatus_eq_none_iff, hstatus]
      exact Option.some_ne_none _
    have hsub : ∀ q, k.settled q = true → q = p := fun q hq =>
      (hp q).mp (htruthful q (h.names_eq ▸ hq))
    obtain ⟨q, hq⟩ := Function.ne_iff.mp hsome
    have hq' : k.settled q = true := Bool.eq_true_of_not_eq_false hq
    obtain rfl := hsub q hq'
    exact hnot ⟨q, fun r => ⟨hsub r, fun hr => hr ▸ hq'⟩⟩
  · intro hsettled p hp
    rw [h.names_eq] at hp
    by_cases hone : ExactlyOne k.current
    · rw [hsettled hone] at hp
      exact absurd hp Bool.false_ne_true
    · rw [← h.settled_eq hone]
      exact hp

end Settled

/-- **The connection status.** For every two runs of events: the status names only
connected profiles exactly when it is not the case that one profile is connected and
the last combination passed through with another number was not empty; and where the
runs end with the same profiles connected, they end with the same status exactly when
these last combinations agree or are the current one. -/
theorem connection_status_iff (m m' : Mainapp) (events events' : List (Profile → ℤ)) :
    let c := (run PhoneConnection.updatePairList (.start, m) events).1
    let c' := (run PhoneConnection.updatePairList (.start, m') events').1
    let k := run Combination.event .start events
    let k' := run Combination.event .start events'
    (c.Truthful ↔ (ExactlyOne k.current → k.settled = noneConnected)) ∧
      (c.connected = c'.connected →
        (c.gPhoneConnectedStatus = c'.gPhoneConnectedStatus ↔
          (ExactlyOne k.current → k.settled = k'.settled))) := by
  intro c c' k k'
  have h : Settled c k := .run m events
  have h' : Settled c' k' := .run m' events'
  refine ⟨h.truthful_iff, fun hsame => ?_⟩
  have hcurrent : k.current = k'.current := by
    rw [← h.connected_eq, hsame, h'.connected_eq]
  rw [← names_injective.eq_iff, h.names_eq, h'.names_eq]
  constructor
  · exact fun heq _ => heq
  · intro hone
    by_cases hcase : ExactlyOne k.current
    · exact hone hcase
    · rw [h.settled_eq hcase, h'.settled_eq (hcurrent ▸ hcase), hcurrent]

/-- The answers of `check_Connect` that find the listed profiles connected. -/
def findConnected (profiles : List Profile) : Profile → ℤ := fun p => if p ∈ profiles then 1 else 0

/-- All profiles connected, then HFP alone: the status still names SPP. After HFP alone
from the start, with the same profile connected, the status is another. -/
theorem status_names_lost_profile :
    let c := (run PhoneConnection.updatePairList (.start, .start fun _ => true)
      [findConnected [.hfp, .hid, .spp], findConnected [.hfp]]).1
    let c' := (run PhoneConnection.updatePairList (.start, .start fun _ => true)
      [findConnected [.hfp]]).1
    c.connected .spp = false ∧ c.gPhoneConnectedStatus.names .spp = true ∧ ¬ c.Truthful ∧
      c.connected = c'.connected ∧ c.gPhoneConnectedStatus ≠ c'.gPhoneConnectedStatus := by
  unfold PhoneConnection.Truthful
  decide

end PhoneLink
