import Mathlib.Data.List.Nodup
import Mathlib.Order.Nat
import TelepathyFacebook.Lib.Runs

/-!
# Account verification

The verification channels and their manager, `tp/account-verify-channel.c` and
`tp/account-verify-manager.c`.  Each call of
`fb_account_verify_manager_verify_async` makes a `GTask` and a channel; both are
numbered by their call.  The manager remembers one task and one channel.

A channel that is closed first emits `finished` and is destroyed after that.  The
callback of a task may run inside that emission, so that whatever it does comes
between the two halves: `close` and `destroyed` are two events, and any others may
come between them.  Another close of the same channel may, so that a channel can be
destroyed twice, and it emits `closed` both times.

* `Answered` asks that every call is answered at most once, by its own channel and
  with that channel's first answer.
* `verification_iff`: this holds all along a run exactly when every answer comes
  while the task slot is empty or holds the task of the answering channel.
-/

namespace TelepathyFacebook

open Runs

/-- The errors of telepathy-glib that a verification fails with. -/
inductive TpError where
  | authenticationFailed
deriving DecidableEq, Repr

/-- What a `finished` signal carries, and what the task returns: a verdict, or an error
with its message. -/
inductive VerifyResult where
  | verified (b : Bool)
  | error (code : TpError) (message : String)
deriving DecidableEq, Repr

/-- The answer of a channel that is closed. -/
def VerifyResult.closed : VerifyResult :=
  .error .authenticationFailed "FbAccountVerifyChannel channel was closed"

/-- `FbAccountVerifyChannel`. -/
structure AccountVerifyChannel where
  verifyUrl : String
  title : String
  message : String
  /-- The calls of `close` that have emitted `finished` and go on after that. -/
  closing : Nat
  /-- `tp_base_channel_is_destroyed`. -/
  destroyed : Bool
deriving DecidableEq, Repr

/-- `FbAccountVerifyManagerPrivate`, and the channels it has made. -/
structure AccountVerifyManager where
  channels : List AccountVerifyChannel
  /-- `priv->channel`. -/
  channel : Option Nat
  /-- `priv->task`. -/
  task : Option Nat
deriving DecidableEq, Repr

namespace AccountVerifyManager

/-- A new manager. -/
def init : AccountVerifyManager := ⟨[], none, none⟩

/-- The channel is on the bus: it was made and is not destroyed. -/
def exported (m : AccountVerifyManager) (i : Nat) : Bool :=
  (m.channels[i]?.map fun c ↦ !c.destroyed).getD false

/-- The close calls of the channel that are under way. -/
def closing (m : AccountVerifyManager) (i : Nat) : Nat :=
  (m.channels[i]?.map fun c ↦ c.closing).getD 0

/-- `fb_account_verify_manager_verify_async`.  A channel that was in the slot keeps the
reference that the slot held, so that it stays exported. -/
def verifyAsync (m : AccountVerifyManager) (verifyUrl title message : String) :
    AccountVerifyManager where
  channels := m.channels ++ [⟨verifyUrl, title, message, 0, false⟩]
  channel := some m.channels.length
  task := some m.channels.length

/-- `channel_finished_cb`: the manager after it, and the task that returns, whichever
channel the signal is from. -/
def channelFinishedCb (m : AccountVerifyManager) : AccountVerifyManager × Option Nat :=
  match m.task with
  | none => (m, none)
  | some task => ({ m with task := none }, some task)

/-- A close call of the channel has emitted `finished`. -/
def setClosing (m : AccountVerifyManager) (i : Nat) : AccountVerifyManager :=
  { m with channels := m.channels.modify i fun c ↦ { c with closing := c.closing + 1 } }

/-- A close call of the channel ends. -/
def unsetClosing (m : AccountVerifyManager) (i : Nat) : AccountVerifyManager :=
  { m with channels := m.channels.modify i fun c ↦ { c with closing := c.closing - 1 } }

/-- Mark a channel as destroyed. -/
def setDestroyed (m : AccountVerifyManager) (i : Nat) : AccountVerifyManager :=
  { m with channels := m.channels.modify i fun c ↦ { c with destroyed := true } }

/-- `channel_closed_cb`.  The slot holds the last reference to its channel, which may
be another one; clearing the slot disposes of it. -/
def channelClosedCb (m : AccountVerifyManager) : AccountVerifyManager :=
  match m.channel with
  | none => m
  | some j => { m.setDestroyed j with channel := none }

/-- `tp_base_channel_destroyed`: the channel emits `closed`, also when it was destroyed
before. -/
def channelDestroyed (m : AccountVerifyManager) (i : Nat) : AccountVerifyManager :=
  (m.setDestroyed i).channelClosedCb

/-- The end of `fb_account_verify_channel_close`, if a call of it is under way. -/
def endClose (m : AccountVerifyManager) (i : Nat) : AccountVerifyManager :=
  if 0 < m.closing i then (m.unsetClosing i).channelDestroyed i else m

@[simp] theorem verifyAsync_task (m : AccountVerifyManager) (url title message : String) :
    (m.verifyAsync url title message).task = some m.channels.length := rfl

@[simp] theorem length_channels_verifyAsync (m : AccountVerifyManager)
    (url title message : String) :
    (m.verifyAsync url title message).channels.length = m.channels.length + 1 := by
  simp [verifyAsync]

@[simp] theorem channelFinishedCb_task (m : AccountVerifyManager) :
    m.channelFinishedCb.1.task = none := by
  rw [channelFinishedCb]
  split
  · assumption
  · rfl

@[simp] theorem channelFinishedCb_snd (m : AccountVerifyManager) :
    m.channelFinishedCb.2 = m.task := by
  rw [channelFinishedCb]
  split <;> simp [*]

@[simp] theorem channelFinishedCb_channels (m : AccountVerifyManager) :
    m.channelFinishedCb.1.channels = m.channels := by
  rw [channelFinishedCb]
  split <;> rfl

@[simp] theorem setClosing_task (m : AccountVerifyManager) (i : Nat) :
    (m.setClosing i).task = m.task := rfl

@[simp] theorem length_channels_setClosing (m : AccountVerifyManager) (i : Nat) :
    (m.setClosing i).channels.length = m.channels.length := by
  simp [setClosing]

@[simp] theorem channelClosedCb_task (m : AccountVerifyManager) :
    m.channelClosedCb.task = m.task := by
  rw [channelClosedCb]
  split <;> rfl

@[simp] theorem length_channels_channelClosedCb (m : AccountVerifyManager) :
    m.channelClosedCb.channels.length = m.channels.length := by
  rw [channelClosedCb]
  split <;> simp [setDestroyed]

@[simp] theorem channelDestroyed_task (m : AccountVerifyManager) (i : Nat) :
    (m.channelDestroyed i).task = m.task :=
  channelClosedCb_task _

@[simp] theorem length_channels_channelDestroyed (m : AccountVerifyManager) (i : Nat) :
    (m.channelDestroyed i).channels.length = m.channels.length := by
  simp [channelDestroyed, setDestroyed]

@[simp] theorem endClose_task (m : AccountVerifyManager) (i : Nat) :
    (m.endClose i).task = m.task := by
  rw [endClose]
  split
  · exact channelDestroyed_task _ i
  · rfl

@[simp] theorem length_channels_endClose (m : AccountVerifyManager) (i : Nat) :
    (m.endClose i).channels.length = m.channels.length := by
  rw [endClose]
  split
  · simp [unsetClosing]
  · rfl

/-- A new manager has no channel to close. -/
theorem setClosing_init (i : Nat) : init.setClosing i = init := by
  simp [setClosing, init]

theorem endClose_init (i : Nat) : init.endClose i = init := by
  simp [endClose, closing, init]

theorem lt_of_exported {m : AccountVerifyManager} {i : Nat} (h : m.exported i) :
    i < m.channels.length := by
  by_contra hlt
  simp [exported, List.getElem?_eq_none (not_lt.mp hlt)] at h

end AccountVerifyManager

open AccountVerifyManager

/-- A task that returned: the call it is of, the channel whose signal made it return,
and its result. -/
structure Completion where
  task : Nat
  source : Nat
  result : VerifyResult
deriving DecidableEq, Repr

/-- The manager, with the `finished` signals it got and the tasks that returned. -/
structure Verification where
  manager : AccountVerifyManager
  signals : List (Nat × VerifyResult)
  completions : List Completion
deriving DecidableEq, Repr

/-- What happens to the manager and its channels. -/
inductive VerifyEvent where
  /-- `fb_account_verify_manager_verify_async`. -/
  | verifyAsync (verifyUrl title message : String)
  /-- A client calls `AccountVerified` on a channel. -/
  | accountVerified (i : Nat) (verified : Bool)
  /-- A client closes a channel: up to the signal. -/
  | close (i : Nat)
  /-- The connection is disconnected, or the manager disposed of. -/
  | closeAll
  /-- The end of a close call of a channel that is under way. -/
  | destroyed (i : Nat)

namespace Verification

/-- A new manager. -/
def init : Verification := ⟨.init, [], []⟩

/-- The `finished` signal of a channel. -/
def finished (s : Verification) (i : Nat) (result : VerifyResult) : Verification where
  manager := s.manager.channelFinishedCb.1
  signals := s.signals ++ [(i, result)]
  completions := s.completions ++
    (s.manager.channelFinishedCb.2.map fun task ↦ ⟨task, i, result⟩).toList

/-- `fb_account_verify_channel_account_verified`. -/
def accountVerified (s : Verification) (i : Nat) (verified : Bool) : Verification :=
  if s.manager.exported i then s.finished i (.verified verified) else s

/-- `fb_account_verify_channel_close`, up to the signal. -/
def close (s : Verification) (i : Nat) : Verification :=
  if s.manager.exported i then
    { s.finished i .closed with manager := (s.finished i .closed).manager.setClosing i }
  else s

/-- `fb_account_verify_manager_close_all`. -/
def closeAll (s : Verification) : Verification :=
  match s.manager.channel with
  | none => s
  | some i => s.close i

/-- One event. -/
def step (s : Verification) : VerifyEvent → Verification
  | .verifyAsync verifyUrl title message =>
      { s with manager := s.manager.verifyAsync verifyUrl title message }
  | .accountVerified i verified => s.accountVerified i verified
  | .close i => s.close i
  | .closeAll => s.closeAll
  | .destroyed i => { s with manager := s.manager.endClose i }

/-! ## What is asked of a run -/

/-- Every call is answered at most once, by its own channel, and with the first answer
of that channel. -/
structure Answered (s : Verification) : Prop where
  nodup : (s.completions.map Completion.task).Nodup
  own : ∀ c ∈ s.completions, c.source = c.task
  first : ∀ c ∈ s.completions, s.signals.find? (·.1 = c.task) = some (c.task, c.result)

/-- The task slot is empty, or holds the task of the channel. -/
def SlotFree (s : Verification) (i : Nat) : Prop :=
  s.manager.task = none ∨ s.manager.task = some i

/-- A channel that answers finds the slot empty or with its own task. -/
def Timely (s : Verification) : VerifyEvent → Prop
  | .accountVerified i _ | .close i => s.manager.exported i → s.SlotFree i
  | .closeAll => ∀ i, s.manager.channel = some i → s.manager.exported i → s.SlotFree i
  | .verifyAsync _ _ _ | .destroyed _ => True

/-! ## Invariants -/

/-- The task in the slot is of a call that was made, and its channel has not answered. -/
structure Inv (s : Verification) : Prop where
  task_lt : ∀ t ∈ s.manager.task, t < s.manager.channels.length
  task_open : ∀ t ∈ s.manager.task, ∀ c ∈ s.completions, c.task ≠ t
  task_silent : ∀ t ∈ s.manager.task, ∀ p ∈ s.signals, p.1 ≠ t
  signal_lt : ∀ p ∈ s.signals, p.1 < s.manager.channels.length
  completion_lt : ∀ c ∈ s.completions, c.task < s.manager.channels.length

theorem inv_init : Inv init := by
  constructor <;> simp [init, AccountVerifyManager.init]

theorem mem_completions_finished {s : Verification} {i : Nat} {result : VerifyResult}
    {c : Completion} :
    c ∈ (s.finished i result).completions ↔
      c ∈ s.completions ∨ ∃ t ∈ s.manager.task, c = ⟨t, i, result⟩ := by
  cases ht : s.manager.task <;> simp [finished, ht]

theorem Inv.finished {s : Verification} (h : Inv s) {i : Nat}
    (hi : i < s.manager.channels.length) (result : VerifyResult) : Inv (s.finished i result) where
  task_lt t ht := by simp [Verification.finished] at ht
  task_open t ht := by simp [Verification.finished] at ht
  task_silent t ht := by simp [Verification.finished] at ht
  signal_lt p hp := by
    rcases List.mem_append.mp hp with hold | hnew
    · simpa [Verification.finished] using h.signal_lt p hold
    · obtain rfl := List.mem_singleton.mp hnew
      simpa [Verification.finished] using hi
  completion_lt c hc := by
    rcases mem_completions_finished.mp hc with hold | ⟨t, ht, rfl⟩
    · simpa [Verification.finished] using h.completion_lt c hold
    · simpa [Verification.finished] using h.task_lt t ht

/-- What changes no task and no number of channels keeps the invariant. -/
theorem Inv.of_manager {s : Verification} (h : Inv s) {m : AccountVerifyManager}
    (htask : m.task = s.manager.task)
    (hlen : m.channels.length = s.manager.channels.length) : Inv { s with manager := m } := by
  refine ⟨?_, ?_, ?_, ?_, ?_⟩ <;> simp only [htask, hlen]
  · exact h.task_lt
  · exact h.task_open
  · exact h.task_silent
  · exact h.signal_lt
  · exact h.completion_lt

theorem Inv.verifyAsync {s : Verification} (h : Inv s) (url title message : String) :
    Inv { s with manager := s.manager.verifyAsync url title message } where
  task_lt t ht := by
    obtain rfl : s.manager.channels.length = t := by simpa using ht
    simp
  task_open t ht c hc := by
    obtain rfl : s.manager.channels.length = t := by simpa using ht
    exact (h.completion_lt c hc).ne
  task_silent t ht p hp := by
    obtain rfl : s.manager.channels.length = t := by simpa using ht
    exact (h.signal_lt p hp).ne
  signal_lt p hp := by simpa using (h.signal_lt p hp).trans (Nat.lt_succ_self _)
  completion_lt c hc := by simpa using (h.completion_lt c hc).trans (Nat.lt_succ_self _)

theorem Inv.close {s : Verification} (h : Inv s) (i : Nat) : Inv (s.close i) := by
  rw [Verification.close]
  split
  · next hi =>
      exact (h.finished (lt_of_exported hi) _).of_manager (by simp) (by simp)
  · exact h

theorem Inv.step {s : Verification} (h : Inv s) (e : VerifyEvent) : Inv (s.step e) := by
  cases e with
  | verifyAsync url title message => exact h.verifyAsync url title message
  | accountVerified i verified =>
      simp only [Verification.step, Verification.accountVerified]
      split
      · next hi => exact h.finished (lt_of_exported hi) _
      · exact h
  | close i => exact h.close i
  | closeAll =>
      simp only [Verification.step, Verification.closeAll]
      split
      · exact h
      · exact h.close _
  | destroyed i => exact h.of_manager (by simp) (by simp)

/-! ## Answers -/

/-- **One answer** keeps the calls well answered exactly when it finds the slot free. -/
theorem answered_finished_iff {s : Verification} (h : Inv s) (ha : Answered s) (i : Nat)
    (result : VerifyResult) : Answered (s.finished i result) ↔ s.SlotFree i := by
  constructor
  · intro hf
    cases ht : s.manager.task with
    | none => exact .inl ht
    | some t =>
        have hown : i = t :=
          hf.own ⟨t, i, result⟩ (mem_completions_finished.mpr (.inr ⟨t, ht, rfl⟩))
        exact .inr (by rw [ht, hown])
  · intro hfree
    have hfirst : ∀ c ∈ s.completions,
        (s.signals ++ [(i, result)]).find? (·.1 = c.task) = some (c.task, c.result) := by
      intro c hc
      rw [List.find?_append, ha.first c hc]
      rfl
    rcases hfree with ht | ht
    · refine ⟨?_, ?_, ?_⟩ <;> simp only [finished, channelFinishedCb_snd, ht, Option.map_none,
        Option.toList_none, List.append_nil]
      · exact ha.nodup
      · exact ha.own
      · exact hfirst
    · -- The task of the channel returns now: it had not, and the channel was silent.
      have hopen := h.task_open i ht
      have hsilent := h.task_silent i ht
      refine ⟨?_, fun c hc ↦ ?_, fun c hc ↦ ?_⟩
      · simp only [finished, channelFinishedCb_snd, ht, Option.map_some, Option.toList_some,
          List.map_append, List.map_cons, List.map_nil]
        refine List.nodup_append.mpr ⟨ha.nodup, List.nodup_singleton i, fun a hmem b hb ↦ ?_⟩
        obtain ⟨c, hc, rfl⟩ := List.mem_map.mp hmem
        rw [List.mem_singleton.mp hb]
        exact hopen c hc
      · rcases mem_completions_finished.mp hc with hold | ⟨t, htt, rfl⟩
        · exact ha.own c hold
        · exact Option.some.inj (ht.symm.trans htt)
      · rcases mem_completions_finished.mp hc with hold | ⟨t, htt, rfl⟩
        · exact hfirst c hold
        · obtain rfl : i = t := Option.some.inj (ht.symm.trans htt)
          have hnone : s.signals.find? (·.1 = i) = none := by
            simpa [List.find?_eq_none] using fun a b hp ↦ hsilent (a, b) hp
          simp [finished, List.find?_append, hnone]

theorem answered_close_iff {s : Verification} (h : Inv s) (ha : Answered s) (i : Nat) :
    Answered (s.close i) ↔ (s.manager.exported i → s.SlotFree i) := by
  rw [close]
  split
  · next hi =>
      rw [imp_iff_right hi, ← answered_finished_iff h ha i .closed]
      exact ⟨fun hc ↦ ⟨hc.nodup, hc.own, hc.first⟩, fun hc ↦ ⟨hc.nodup, hc.own, hc.first⟩⟩
  · next hi => exact iff_of_true ha fun hc ↦ absurd hc hi

/-- **One step** keeps the calls well answered exactly when it is timely. -/
theorem answered_step_iff {s : Verification} (h : Inv s) (ha : Answered s) (e : VerifyEvent) :
    Answered (s.step e) ↔ s.Timely e := by
  cases e with
  | verifyAsync url title message => exact iff_of_true ⟨ha.nodup, ha.own, ha.first⟩ trivial
  | accountVerified i verified =>
      simp only [step, accountVerified, Timely]
      split
      · next hi => rw [imp_iff_right hi, answered_finished_iff h ha]
      · next hi => exact iff_of_true ha fun hc ↦ absurd hc hi
  | close i => exact answered_close_iff h ha i
  | closeAll =>
      simp only [step, closeAll, Timely]
      cases hc : s.manager.channel with
      | none => exact iff_of_true ha fun i hi ↦ (by cases hi)
      | some i => simpa using answered_close_iff h ha i
  | destroyed i => exact iff_of_true ⟨ha.nodup, ha.own, ha.first⟩ trivial

/-- **When every call gets its own answer.**  In every state of a run each call is
answered at most once, by its own channel and with the first answer of that channel,
if and only if every answer of the run is timely. -/
theorem verification_iff (es : List VerifyEvent) :
    Always step Answered init es ↔ Steps step Timely init es :=
  always_iff (P := Inv) (fun _ e h ↦ h.step e) (fun _ e h ha ↦ answered_step_iff h ha e) inv_init
    ⟨List.nodup_nil, fun _ hc ↦ (by cases hc), fun _ hc ↦ (by cases hc)⟩ es

/-- Two calls, and the client answers on the first channel: the second call gets the
answer. -/
theorem answer_crosses_calls :
    ¬ Always step Answered init [.verifyAsync "https://m/1" "Verify" "First",
      .verifyAsync "https://m/2" "Verify" "Second", .accountVerified 0 true] := by
  intro h
  have hown := h.last.own ⟨1, 0, .verified true⟩ (by decide)
  cases hown

end Verification

end TelepathyFacebook
