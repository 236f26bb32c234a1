import TelepathyFacebook.AccountVerify
import TelepathyFacebook.Lifecycle

/-!
# Channel tracking

Which verification channels the manager of `tp/account-verify-manager.c` knows about.
It remembers one channel, which `fb_account_verify_manager_foreach_channel` lists and
`fb_account_verify_manager_close_all` closes; `channel_closed_cb` forgets that channel,
whichever channel was closed.

Every call of `fb_account_verify_channel_close` that finds its channel not destroyed
ends in `tp_base_channel_destroyed`, which emits `closed`.  What the callback of a task
does inside `finished` comes in between, so a channel can be closed twice.

* `sound_iff_timely`: one event is sound exactly when it is timely.
* `channelTracking_iff`: the manager knows every announced channel, all along a run,
  exactly when no verification starts while a channel is still announced, and no second
  `closed` signal of a channel meets the channel of a later verification.
-/

namespace TelepathyFacebook

open Runs

namespace AccountVerifyManager

/-- `fb_account_verify_manager_foreach_channel`. -/
def foreachChannel (m : AccountVerifyManager) : List Nat :=
  match m.channel with
  | none => []
  | some i => if m.exported i then [i] else []

variable {m : AccountVerifyManager} {i j : Nat}

theorem mem_foreachChannel (hslot : m.channel = some i) (hi : m.exported i) :
    i ∈ m.foreachChannel := by
  simp [foreachChannel, hslot, hi]

theorem exported_verifyAsync (url title message : String) :
    (m.verifyAsync url title message).exported i ↔ m.exported i ∨ i = m.channels.length := by
  rcases lt_trichotomy i m.channels.length with h | rfl | h
  · simp [exported, verifyAsync, List.getElem?_append_left h, h.ne]
  · simp [exported, verifyAsync]
  · have hnone : m.channels[i]? = none := List.getElem?_eq_none h.le
    have hnone' : (m.channels ++ [⟨url, title, message, 0, false⟩])[i]? = none :=
      List.getElem?_eq_none (by simpa using Nat.succ_le_of_lt h)
    simp [exported, verifyAsync, hnone, hnone', h.ne']

@[simp] theorem exported_setClosing : (m.setClosing i).exported j = m.exported j := by
  rw [exported, exported, setClosing, List.getElem?_modify]
  cases m.channels[j]? with
  | none => rfl
  | some c => by_cases h : i = j <;> simp [h]

theorem exported_setDestroyed :
    (m.setDestroyed i).exported j ↔ m.exported j ∧ i ≠ j := by
  rw [exported, exported, setDestroyed, List.getElem?_modify]
  cases m.channels[j]? with
  | none => simp
  | some c => by_cases h : i = j <;> simp [h]

/-- The channel in the slot is destroyed with it. -/
theorem exported_channelClosedCb :
    m.channelClosedCb.exported j ↔ m.exported j ∧ m.channel ≠ some j := by
  rw [channelClosedCb]
  split
  · next h => simp [h]
  · next i h => simpa [h, exported] using exported_setDestroyed (m := m) (i := i)

@[simp] theorem channelClosedCb_channel : m.channelClosedCb.channel = none := by
  rw [channelClosedCb]
  split
  · assumption
  · rfl

@[simp] theorem channelDestroyed_channel : (m.channelDestroyed i).channel = none :=
  channelClosedCb_channel

@[simp] theorem channelFinishedCb_channel : m.channelFinishedCb.1.channel = m.channel := by
  rw [channelFinishedCb]
  split <;> rfl

@[simp] theorem exported_channelFinishedCb :
    m.channelFinishedCb.1.exported i = m.exported i := by
  simp [exported]

end AccountVerifyManager

open AccountVerifyManager

/-- A call of `fb_account_verify_channel_close` that has emitted `finished`. -/
structure CloseCall where
  channel : Nat
  /-- `conn_status_changed_cb` made it, for DISCONNECTED. -/
  disconnected : Bool
deriving DecidableEq, Repr

/-- The manager and its channels, with the close calls that are under way. -/
structure ChannelTracking where
  verification : Verification
  closings : List CloseCall
deriving DecidableEq, Repr

/-- What happens to the manager and its channels. -/
inductive TrackingEvent where
  /-- `fb_account_verify_manager_verify_async`. -/
  | verifyAsync (verifyUrl title message : String)
  /-- A client calls `AccountVerified` on a channel. -/
  | accountVerified (i : Nat) (verified : Bool)
  /-- A client closes a channel: up to `finished`. -/
  | close (i : Nat)
  /-- The connection emits `status-changed`; a close it calls for goes up to `finished`. -/
  | statusChanged (status : ConnectionStatus)
  /-- The end of a close call that is under way: `tp_base_channel_destroyed`. -/
  | destroyed (k : Nat)

namespace ChannelTracking

/-- A new manager. -/
def init : ChannelTracking := ⟨.init, []⟩

/-- The manager. -/
def manager (s : ChannelTracking) : AccountVerifyManager := s.verification.manager

/-- `fb_account_verify_channel_close`, up to `finished`. -/
def close (s : ChannelTracking) (i : Nat) (disconnected : Bool) : ChannelTracking :=
  if s.manager.exported i then
    ⟨s.verification.close i, s.closings ++ [⟨i, disconnected⟩]⟩
  else s

/-- `conn_status_changed_cb`, with `fb_account_verify_manager_close_all`. -/
def connStatusChangedCb (s : ChannelTracking) : ConnectionStatus → ChannelTracking
  | .disconnected =>
      match s.manager.channel with
      | none => s
      | some i => s.close i true
  | .new | .connecting | .connected => s

/-- `tp_base_channel_destroyed`. -/
def destroyed (s : ChannelTracking) (i : Nat) : ChannelTracking :=
  { s with verification := { s.verification with manager := s.manager.channelDestroyed i } }

/-- One event. -/
def step (s : ChannelTracking) : TrackingEvent → ChannelTracking
  | .verifyAsync verifyUrl title message =>
      { s with verification := s.verification.step (.verifyAsync verifyUrl title message) }
  | .accountVerified i verified =>
      { s with verification := s.verification.accountVerified i verified }
  | .close i => s.close i false
  | .statusChanged status => s.connStatusChangedCb status
  | .destroyed k =>
      match s.closings[k]? with
      | none => s
      | some call => { s.destroyed call.channel with closings := s.closings.eraseIdx k }

/-! ## What is asked of a run -/

/-- The task of a call has returned. -/
def Completed (s : ChannelTracking) (t : Nat) : Prop :=
  ∃ c ∈ s.verification.completions, c.task = t

/-- The handling of a `status-changed` signal for DISCONNECTED ends with the event:
either there is nothing to close, or the close call that it made ends. -/
def EndsDisconnect (s : ChannelTracking) : TrackingEvent → Prop
  | .statusChanged .disconnected => ∀ i, s.manager.channel = some i → ¬ s.manager.exported i
  | .destroyed k => ∃ call, s.closings[k]? = some call ∧ call.disconnected
  | _ => False

/-- An event is sound if after it the manager knows every channel that is announced and
not destroyed, a `closed` signal clears the slot of its own channel only, and once
DISCONNECTED is handled no channel is open and every task has returned. -/
structure Sound (s : ChannelTracking) (e : TrackingEvent) : Prop where
  slot : ∀ i, (s.step e).manager.exported i → (s.step e).manager.channel = some i
  listed : ∀ i, (s.step e).manager.exported i → i ∈ (s.step e).manager.foreachChannel
  own : ∀ k call j, e = .destroyed k → s.closings[k]? = some call →
    s.manager.channel = some j → j = call.channel
  disconnected : s.EndsDisconnect e →
    (∀ i, ¬ (s.step e).manager.exported i) ∧
      ∀ t < (s.step e).manager.channels.length, (s.step e).Completed t

/-- An event is timely if a verification starts with no channel announced, and a channel
that emits `closed` although it is destroyed finds the slot empty. -/
def Timely (s : ChannelTracking) : TrackingEvent → Prop
  | .verifyAsync _ _ _ => ∀ i, ¬ s.manager.exported i
  | .destroyed k => ∀ call, s.closings[k]? = some call → ¬ s.manager.exported call.channel →
      s.manager.channel = none
  | .accountVerified _ _ | .close _ | .statusChanged _ => True

/-! ## The invariant -/

/-- The announced channels are those in the slot, and a call that was not answered is
that of an announced channel nobody closes. -/
structure Inv (s : ChannelTracking) : Prop where
  slot_exported : ∀ i ∈ s.manager.channel, s.manager.exported i
  tracked : ∀ i, s.manager.exported i → s.manager.channel = some i
  task_exported : ∀ t ∈ s.manager.task, s.manager.exported t
  task_open : ∀ t ∈ s.manager.task, ∀ call ∈ s.closings, call.channel ≠ t
  answered : ∀ t < s.manager.channels.length, s.manager.task = some t ∨ s.Completed t
  closings_lt : ∀ call ∈ s.closings, call.channel < s.manager.channels.length

theorem inv_init : Inv init := by
  constructor <;> simp [init, manager, Verification.init, AccountVerifyManager.init, exported]

variable {s : ChannelTracking}

/-- With the slot empty no channel is announced, and every task has returned. -/
theorem Inv.quiet (h : Inv s) (hslot : s.manager.channel = none) :
    (∀ i, ¬ s.manager.exported i) ∧ ∀ t < s.manager.channels.length, s.Completed t := by
  have hnone : ∀ i, ¬ s.manager.exported i := by
    intro i hi
    have hi' := h.tracked i hi
    rw [hslot] at hi'
    cases hi'
  refine ⟨hnone, fun t ht ↦ (h.answered t ht).resolve_left fun htask ↦ ?_⟩
  exact hnone t (h.task_exported t htask)

theorem Inv.verifyAsync (h : Inv s) (hnone : ∀ i, ¬ s.manager.exported i)
    (url title message : String) : Inv (s.step (.verifyAsync url title message)) := by
  have hexported (i : Nat) :
      (s.manager.verifyAsync url title message).exported i ↔ i = s.manager.channels.length := by
    rw [exported_verifyAsync, or_iff_right (hnone i)]
  refine ⟨?_, fun i hi ↦ ?_, ?_, ?_, fun t ht ↦ ?_, fun call hcall ↦ ?_⟩
  · rintro i ⟨⟩
    exact (hexported _).mpr rfl
  · exact congrArg some ((hexported i).mp hi).symm
  · rintro t ⟨⟩
    exact (hexported _).mpr rfl
  · rintro t ⟨⟩ call hcall
    exact (h.closings_lt call hcall).ne
  · have hlen : t < s.manager.channels.length + 1 := by
      rwa [← length_channels_verifyAsync s.manager url title message]
    rcases Nat.lt_succ_iff_lt_or_eq.mp hlen with hold | rfl
    · refine .inr ((h.answered t hold).resolve_left fun htask ↦ ?_)
      exact hnone t (h.task_exported t htask)
    · exact .inl rfl
  · simpa [step, manager, Verification.step] using
      (h.closings_lt call hcall).trans (Nat.lt_succ_self _)

/-- A `finished` signal makes the task in the slot return. -/
theorem Inv.finished (h : Inv s) (i : Nat) (result : VerifyResult) :
    Inv { s with verification := s.verification.finished i result } where
  slot_exported j hj := by
    have hj' : s.manager.channel = some j := by
      simpa [manager, Verification.finished] using hj
    simpa [manager, Verification.finished] using h.slot_exported j hj'
  tracked j hj := by
    have hj' : s.manager.exported j := by
      simpa [manager, Verification.finished] using hj
    simpa [manager, Verification.finished] using h.tracked j hj'
  task_exported t ht := by simp [manager, Verification.finished] at ht
  task_open t ht := by simp [manager, Verification.finished] at ht
  answered t ht := by
    have ht' : t < s.manager.channels.length := by
      simpa [manager, Verification.finished] using ht
    rcases h.answered t ht' with htask | ⟨c, hc, rfl⟩
    · exact .inr ⟨⟨t, i, result⟩,
        Verification.mem_completions_finished.mpr (.inr ⟨t, htask, rfl⟩), rfl⟩
    · exact .inr ⟨c, Verification.mem_completions_finished.mpr (.inl hc), rfl⟩
  closings_lt call hcall := by
    simpa [manager, Verification.finished] using h.closings_lt call hcall

/-- A close call leaves the channel announced and answers the call. -/
theorem Inv.close (h : Inv s) (i : Nat) (disconnected : Bool) : Inv (s.close i disconnected) := by
  rw [ChannelTracking.close]
  split
  · next hi =>
      have hclose : s.verification.close i =
          { s.verification.finished i .closed with
            manager := (s.verification.finished i .closed).manager.setClosing i } :=
        if_pos hi
      have hf := h.finished i .closed
      rw [hclose]
      refine ⟨fun j hj ↦ ?_, fun j hj ↦ ?_, fun t ht ↦ ?_, fun t ht ↦ ?_, fun t ht ↦ ?_,
        fun call hcall ↦ ?_⟩
      · exact (congrArg (· = true) exported_setClosing).mpr (hf.slot_exported j hj)
      · exact hf.tracked j ((congrArg (· = true) exported_setClosing).mp hj)
      · simp [manager, Verification.finished] at ht
      · simp [manager, Verification.finished] at ht
      · apply hf.answered t
        simpa [manager] using ht
      · rcases List.mem_append.mp hcall with hold | hnew
        · simpa [manager] using hf.closings_lt call hold
        · obtain rfl := List.mem_singleton.mp hnew
          simpa [manager, Verification.finished] using lt_of_exported hi
  · exact h

/-- A channel that is destroyed in time leaves nothing open. -/
theorem Inv.destroyed_quiet (h : Inv s) {call : CloseCall} (hcall : call ∈ s.closings)
    (htimely : ¬ s.manager.exported call.channel → s.manager.channel = none) :
    (∀ i, ¬ (s.destroyed call.channel).manager.exported i) ∧ s.manager.task = none := by
  have hslot : ∀ j, s.manager.channel = some j → j = call.channel := by
    intro j hj
    by_cases hexp : s.manager.exported call.channel
    · exact Option.some.inj (hj.symm.trans (h.tracked _ hexp))
    · rw [htimely hexp] at hj
      cases hj
  constructor
  · intro j hj
    obtain ⟨hj, hne⟩ := exported_channelClosedCb.mp hj
    obtain ⟨hj, hne⟩ := exported_setDestroyed.mp hj
    exact hne (hslot j (h.tracked j hj)).symm
  · rw [Option.eq_none_iff_forall_ne_some]
    intro t ht
    have htracked := h.tracked t (h.task_exported t ht)
    exact h.task_open t ht call hcall (hslot t htracked).symm

/-- A timely event keeps the invariant. -/
theorem Inv.step (h : Inv s) {e : TrackingEvent} (he : s.Timely e) : Inv (s.step e) := by
  cases e with
  | verifyAsync url title message => exact h.verifyAsync he url title message
  | accountVerified i verified =>
      simp only [ChannelTracking.step, Verification.accountVerified]
      split
      · exact h.finished i _
      · exact h
  | close i => exact h.close i false
  | statusChanged status =>
      cases status with
      | disconnected =>
          simp only [ChannelTracking.step, connStatusChangedCb]
          split
          · exact h
          · exact h.close _ true
      | new | connecting | connected => exact h
  | destroyed k =>
      simp only [ChannelTracking.step]
      split
      · exact h
      · next call hk =>
          have hcall := List.mem_of_getElem? hk
          obtain ⟨hnone, htask⟩ := h.destroyed_quiet hcall (he call hk)
          have htask' : (s.destroyed call.channel).manager.task = none := by
            simpa [manager, ChannelTracking.destroyed, setDestroyed] using htask
          refine ⟨fun i hi ↦ ?_, fun i hi ↦ absurd hi (hnone i),
            fun t ht ↦ (by cases htask'.symm.trans ht), fun t ht ↦ (by cases htask'.symm.trans ht),
            fun t ht ↦ ?_, fun call' hcall' ↦ ?_⟩
          · simp [manager, ChannelTracking.destroyed] at hi
          · refine .inr ((h.answered t ?_).resolve_left ?_)
            · simpa [manager, ChannelTracking.destroyed, setDestroyed] using ht
            · rw [htask]
              exact (Option.some_ne_none t).symm
          · simpa [manager, ChannelTracking.destroyed, setDestroyed] using
              h.closings_lt call' (List.mem_of_mem_eraseIdx hcall')

/-- The event that ends the handling of DISCONNECTED leaves the slot empty. -/
theorem channel_eq_none_of_endsDisconnect (h : Inv s) {e : TrackingEvent}
    (he : s.EndsDisconnect e) : (s.step e).manager.channel = none := by
  cases e with
  | verifyAsync | accountVerified | close => exact he.elim
  | statusChanged status =>
      cases status with
      | disconnected =>
          have hslot : s.manager.channel = none := by
            rw [Option.eq_none_iff_forall_ne_some]
            exact fun i hi ↦ he i hi (h.slot_exported i hi)
          simp only [step, connStatusChangedCb, hslot]
      | new | connecting | connected => exact he.elim
  | destroyed k =>
      obtain ⟨call, hk, -⟩ := he
      simp [step, hk, manager, destroyed]

/-- **One event** is sound exactly when it is timely. -/
theorem sound_iff_timely (h : Inv s) (e : TrackingEvent) : Sound s e ↔ s.Timely e := by
  constructor
  · intro hs
    cases e with
    | verifyAsync url title message =>
        -- The new channel is announced, so no other can be.
        intro i hi
        have hslot := hs.slot i ((exported_verifyAsync url title message).mpr (.inl hi))
        have hnew : s.manager.channels.length = i := Option.some.inj hslot
        exact (lt_of_exported hi).ne' hnew
    | destroyed k =>
        intro call hk hexp
        rw [Option.eq_none_iff_forall_ne_some]
        intro j hj
        have hown := hs.own k call j rfl hk hj
        exact hexp (hown ▸ h.slot_exported j hj)
    | accountVerified | close | statusChanged => trivial
  · intro ht
    have hinv := h.step ht
    refine ⟨hinv.tracked, fun i hi ↦ mem_foreachChannel (hinv.tracked i hi) hi, ?_,
      fun he ↦ hinv.quiet (channel_eq_none_of_endsDisconnect h he)⟩
    rintro k call j rfl hk hj
    by_cases hexp : s.manager.exported call.channel
    · exact Option.some.inj (hj.symm.trans (h.tracked _ hexp))
    · rw [ht call hk hexp] at hj
      cases hj

/-- **When channels are tracked.**  All events of a run are sound if and only if all of
them are timely. -/
theorem channelTracking_iff (es : List TrackingEvent) :
    Steps step Sound init es ↔ Steps step Timely init es :=
  steps_iff (P := Inv) (fun _ _ h he ↦ h.step he) (fun _ e h ↦ sound_iff_timely h e) inv_init es

/-- A second verification starts while the channel of the first is announced: the manager
forgets the first channel. -/
theorem first_channel_lost :
    ¬ Steps step Sound init [.verifyAsync "https://m/1" "Verify" "First",
      .verifyAsync "https://m/2" "Verify" "Second"] := by
  intro h
  have hslot := h.2.1.slot 0 rfl
  cases hslot

end ChannelTracking

end TelepathyFacebook
