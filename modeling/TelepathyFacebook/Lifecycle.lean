import TelepathyFacebook.AccountVerify

/-!
# The lifecycle of a connection

The callbacks of `tp/connection.c` between the first connecting and the shutdown: the
signals of `FbApi`, the answers of verification channels, and the client's
disconnecting all act on one status and one `FbApi` pointer.

Entering DISCONNECTED emits status-changed, on which the verification manager closes
its channel, and then calls `_iface_shut_down`.  That calls `fb_api_disconnect`, which
may emit signals; the pointer is cleared when it returns.  `disconnecting` says that
the connection is inside that call, and then nothing but signals happens.  All this
holds of a connection that was never started as well, which has no `FbApi`.

The callback of a task runs at once or in a later main-loop iteration (`pending`), as
the event says.

The calls that the connection makes are logged with the status at the time, and
`lifecycle_iff` says in which runs all of them are allowed.
-/

namespace TelepathyFacebook

open Runs AccountVerifyManager

/-- `TpConnectionStatus`. -/
inductive ConnectionStatus where
  | new | connecting | connected | disconnected
deriving DecidableEq, Repr

/-- `TpConnectionStatusReason`. -/
inductive StatusReason where
  | requested | networkError | authenticationFailed | noneSpecified
deriving DecidableEq, Repr

/-- The pointer `priv->api`: NULL before there is an object and after it is released. -/
inductive ApiPtr where
  | null | live
deriving DecidableEq, Repr

/-- An error of `FbApi`, by its domain and code. -/
inductive FbApiError where
  | auth | other | foreign
deriving DecidableEq, Repr

/-- The signals of `FbApi`. -/
inductive ApiSignal where
  | auth
  | accountVerify (url title message : String)
  | connect
  | error (error : FbApiError)
  | contacts (complete : Bool)
  | presences
deriving DecidableEq, Repr

/-- What the connection calls. -/
inductive Call where
  | fbApiAuth (api : ApiPtr)
  | fbApiContacts (api : ApiPtr)
  | fbApiConnect (api : ApiPtr)
  | fbApiDisconnect (api : ApiPtr)
  | changeStatus (status : ConnectionStatus) (reason : StatusReason)
deriving DecidableEq, Repr

/-- The pointer that a call passes. -/
def Call.api : Call → Option ApiPtr
  | .fbApiAuth api | .fbApiContacts api | .fbApiConnect api | .fbApiDisconnect api => some api
  | .changeStatus _ _ => none

/-- A call is allowed if it passes no NULL, and if it is made before DISCONNECTED or only
disconnects the `FbApi`. -/
def Call.Allowed (status : ConnectionStatus) (c : Call) : Prop :=
  (∀ api ∈ c.api, api = .live) ∧ (status = .disconnected → c = .fbApiDisconnect .live)

/-- The part of a connection that its lifecycle is about. -/
structure ConnectionState where
  status : ConnectionStatus
  api : ApiPtr
  /-- `_iface_shut_down` is inside `fb_api_disconnect`. -/
  disconnecting : Bool
  manager : AccountVerifyManager
  /-- Results of tasks whose callback has not run. -/
  pending : List VerifyResult
  /-- The calls that were made, with the status at the time. -/
  log : List (ConnectionStatus × Call)
deriving DecidableEq, Repr

/-- What happens to a connection.  Where a task may return, `now` says that its callback
runs at once. -/
inductive LifecycleEvent where
  /-- `_iface_start_connecting`. -/
  | startConnecting
  /-- `FbApi` emits a signal. -/
  | signal (signal : ApiSignal) (now : Bool)
  /-- A client calls `AccountVerified` on a channel. -/
  | accountVerified (i : Nat) (verified now : Bool)
  /-- A channel is closed: up to its signal. -/
  | close (i : Nat) (now : Bool)
  /-- The end of a close call of a channel that is under way. -/
  | destroyed (i : Nat)
  /-- The callback of a pending result runs. -/
  | deliver (k : Nat) (now : Bool)
  /-- A client disconnects. -/
  | disconnect (now : Bool)
  /-- `fb_api_disconnect` returns. -/
  | shutDown

namespace ConnectionState

/-- A new connection. -/
def init : ConnectionState := ⟨.new, .null, false, .init, [], []⟩

/-- Make a call. -/
def call (s : ConnectionState) (c : Call) : ConnectionState :=
  { s with log := s.log ++ [(s.status, c)] }

/-! ## Verification -/

/-- `_account_verified_cb`.  What entering DISCONNECTED does is a parameter. -/
def accountVerifiedCb (enter : ConnectionState → ConnectionState) (s : ConnectionState)
    (result : VerifyResult) : ConnectionState :=
  match result with
  | .verified true => s.call (.fbApiAuth s.api)
  | .verified false | .error _ _ =>
      if s.status ≠ .disconnected then
        enter (s.call (.changeStatus .disconnected .authenticationFailed))
      else s

/-- The `finished` signal of a channel, with the callback of the task that returns. -/
def finished (enter : ConnectionState → ConnectionState) (s : ConnectionState)
    (result : VerifyResult) (now : Bool) : ConnectionState :=
  let s' := { s with manager := s.manager.channelFinishedCb.1 }
  match s.manager.channelFinishedCb.2 with
  | none => s'
  | some _ =>
      if now then accountVerifiedCb enter s' result
      else { s' with pending := s'.pending ++ [result] }

/-- `fb_account_verify_channel_account_verified`. -/
def accountVerified (enter : ConnectionState → ConnectionState) (s : ConnectionState) (i : Nat)
    (verified now : Bool) : ConnectionState :=
  if s.manager.exported i then finished enter s (.verified verified) now else s

/-- `fb_account_verify_channel_close`, up to the signal. -/
def close (enter : ConnectionState → ConnectionState) (s : ConnectionState) (i : Nat)
    (now : Bool) : ConnectionState :=
  if s.manager.exported i then
    let s' := finished enter s .closed now
    { s' with manager := s'.manager.setClosing i }
  else s

/-- The end of `fb_account_verify_channel_close`, if a call of it is under way. -/
def endClose (s : ConnectionState) (i : Nat) : ConnectionState :=
  { s with manager := s.manager.endClose i }

/-! ## The status -/

/-- `conn_status_changed_cb` in status DISCONNECTED, in which the callback of a closed
channel's task does nothing. -/
def closeAll (s : ConnectionState) (now : Bool) : ConnectionState :=
  match s.manager.channel with
  | none => s
  | some i => if s.manager.exported i then (close id s i now).endClose i else s

/-- `tp_base_connection_change_status` to DISCONNECTED, up to the inside of
`fb_api_disconnect`. -/
def enterDisconnected (now : Bool) (s : ConnectionState) : ConnectionState :=
  let s' := closeAll { s with status := .disconnected } now
  { s'.call (.fbApiDisconnect s'.api) with disconnecting := true }

/-- `tp_base_connection_change_status`.  Nothing leads out of DISCONNECTED. -/
def changeStatus (s : ConnectionState) (status : ConnectionStatus) (reason : StatusReason)
    (now : Bool) : ConnectionState :=
  let s' := s.call (.changeStatus status reason)
  if s.status = .disconnected then s'
  else if status = .disconnected then s'.enterDisconnected now
  else { s' with status := status }

/-- The reason that `fb_cb_api_error` gives. -/
def errorReason : FbApiError → StatusReason
  | .auth => .authenticationFailed
  | .other => .noneSpecified
  | .foreign => .networkError

/-- The callbacks of the signals of `FbApi`: `fb_api_auth_cb`,
`fb_api_account_verify_cb`, `fb_api_connect_cb`, `fb_cb_api_error`,
`fb_cb_api_contacts` and `fb_cb_api_presences`. -/
def handleSignal (s : ConnectionState) (signal : ApiSignal) (now : Bool) : ConnectionState :=
  match signal with
  | .auth => s.call (.fbApiContacts s.api)
  | .accountVerify url title message =>
      { s with manager := s.manager.verifyAsync url title message }
  | .connect => s.changeStatus .connected .requested now
  | .error error => s.changeStatus .disconnected (errorReason error) now
  | .contacts complete =>
      -- The object that emits the signal is passed, not the pointer.
      if complete ∧ s.status ≠ .connected then s.call (.fbApiConnect .live) else s
  | .presences => s

/-- `_iface_start_connecting`. -/
def startConnecting (s : ConnectionState) : ConnectionState :=
  if s.status = .new then
    (({ s with api := .live }).changeStatus .connecting .requested false).call (.fbApiAuth .live)
  else s

/-- A client disconnects. -/
def disconnect (s : ConnectionState) (now : Bool) : ConnectionState :=
  if s.status = .disconnected then s else s.enterDisconnected now

/-- The callback of a pending result runs. -/
def deliver (s : ConnectionState) (k : Nat) (now : Bool) : ConnectionState :=
  match s.pending[k]? with
  | none => s
  | some result =>
      accountVerifiedCb (enterDisconnected now) { s with pending := s.pending.eraseIdx k } result

/-- `FbApi` emits a signal, if there is one. -/
def emit (s : ConnectionState) (signal : ApiSignal) (now : Bool) : ConnectionState :=
  if s.api = .live then s.handleSignal signal now else s

/-- One event inside `fb_api_disconnect`. -/
def stepInside (s : ConnectionState) : LifecycleEvent → ConnectionState
  | .signal signal now => s.emit signal now
  | .shutDown => { s with api := .null, disconnecting := false }
  | _ => s

/-- One event in the main loop. -/
def stepOutside (s : ConnectionState) : LifecycleEvent → ConnectionState
  | .startConnecting => s.startConnecting
  | .signal signal now => s.emit signal now
  | .accountVerified i verified now => accountVerified (enterDisconnected now) s i verified now
  | .close i now => close (enterDisconnected now) s i now
  | .destroyed i => s.endClose i
  | .deliver k now => s.deliver k now
  | .disconnect now => s.disconnect now
  | .shutDown => s

/-- One event. -/
def step (s : ConnectionState) (e : LifecycleEvent) : ConnectionState :=
  if s.disconnecting then s.stepInside e else s.stepOutside e

/-! ## What is asked of a run -/

/-- Every call was allowed. -/
def Orderly (s : ConnectionState) : Prop := ∀ c ∈ s.log, c.2.Allowed c.1

/-- The signals that make no call in DISCONNECTED. -/
def Harmless : ApiSignal → Prop
  | .accountVerify _ _ _ | .contacts false | .presences => True
  | .auth | .connect | .error _ | .contacts true => False

/-- The condition on an event.  A signal from inside `fb_api_disconnect` is harmless, no
positive verdict reaches `_account_verified_cb` in DISCONNECTED, and a client does not
disconnect before there is an `FbApi`. -/
def Late (s : ConnectionState) : LifecycleEvent → Prop
  | .signal signal _ => s.disconnecting → s.api = .live → Harmless signal
  | .accountVerified i verified now =>
      ¬ (s.disconnecting = false ∧ s.status = .disconnected ∧ s.manager.exported i ∧
        s.manager.task.isSome ∧ verified ∧ now)
  | .deliver k _ =>
      ¬ (s.disconnecting = false ∧ s.status = .disconnected ∧
        s.pending[k]? = some (.verified true))
  | .disconnect _ => s.status ≠ .new
  | .startConnecting | .close _ _ | .destroyed _ | .shutDown => True

/-- The status, the pointer and the shutdown agree; a connection that was not started
has no task. -/
structure Inv (s : ConnectionState) : Prop where
  running : s.status = .connecting ∨ s.status = .connected →
    s.api = .live ∧ s.disconnecting = false
  shutting : s.disconnecting → s.status = .disconnected
  down : s.status = .disconnected → s.disconnecting = false → s.api ≠ .live
  fresh : s.status = .new →
    s.api ≠ .live ∧ s.disconnecting = false ∧ s.manager = .init ∧ s.pending = []

theorem inv_init : Inv init where
  running h := by rcases h with h | h <;> cases h
  shutting h := by cases h
  down h := by cases h
  fresh _ := ⟨by decide, rfl, rfl, rfl⟩

/-! A connection with an `FbApi`, a task or a pending result was started. -/

theorem Inv.not_new_of_live {s : ConnectionState} (h : Inv s) (hapi : s.api = .live) :
    s.status ≠ .new := fun hnew ↦ (h.fresh hnew).1 hapi

theorem Inv.not_new_of_task {s : ConnectionState} (h : Inv s) (ht : s.manager.task.isSome) :
    s.status ≠ .new := by
  intro hnew
  rw [(h.fresh hnew).2.2.1] at ht
  cases ht

theorem Inv.not_new_of_pending {s : ConnectionState} (h : Inv s) {k : Nat}
    {result : VerifyResult} (hk : s.pending[k]? = some result) : s.status ≠ .new := by
  intro hnew
  rw [(h.fresh hnew).2.2.2] at hk
  cases hk

/-- The invariant looks at the manager and the results of new connections only. -/
theorem Inv.of_not_new {s s' : ConnectionState} (h : Inv s) (hnew : s.status ≠ .new)
    (hstatus : s'.status = s.status) (hapi : s'.api = s.api)
    (hdisc : s'.disconnecting = s.disconnecting) : Inv s' := by
  refine ⟨?_, ?_, ?_, ?_⟩ <;> rw [hstatus]
  · rw [hapi, hdisc]
    exact h.running
  · rw [hdisc]
    exact h.shutting
  · rw [hapi, hdisc]
    exact h.down
  · exact fun hc ↦ absurd hc hnew

/-- A new manager may not change in a new connection. -/
theorem Inv.with_manager {s : ConnectionState} (h : Inv s) {m : AccountVerifyManager}
    (hm : s.manager = .init → m = .init) : Inv { s with manager := m } where
  running := h.running
  shutting := h.shutting
  down := h.down
  fresh hnew := by
    obtain ⟨hapi, hdisc, hmgr, hpending⟩ := h.fresh hnew
    exact ⟨hapi, hdisc, hm hmgr, hpending⟩

/-- A connection that is inside `fb_api_disconnect`. -/
theorem Inv.of_shutting {s : ConnectionState} (hstatus : s.status = .disconnected)
    (hdisc : s.disconnecting = true) : Inv s := by
  refine ⟨?_, fun _ ↦ hstatus, ?_, ?_⟩ <;> simp [hstatus, hdisc]

theorem orderly_call {s : ConnectionState} {c : Call} :
    Orderly (s.call c) ↔ Orderly s ∧ c.Allowed s.status := by
  simp only [Orderly, call, List.mem_append, List.mem_singleton]
  constructor
  · intro h
    exact ⟨fun c' hc' ↦ h c' (.inl hc'), h _ (.inr rfl)⟩
  · rintro ⟨hs, hc⟩ c' (hc' | rfl)
    · exact hs c' hc'
    · exact hc

theorem orderly_congr {s s' : ConnectionState} (h : s'.log = s.log) : Orderly s' ↔ Orderly s := by
  rw [Orderly, h, Orderly]

/-- A call that passes no NULL is allowed before DISCONNECTED, and only there unless it
disconnects the `FbApi`. -/
theorem allowed_iff {status : ConnectionStatus} {c : Call} (hc : ∀ api ∈ c.api, api = .live)
    (hne : c ≠ .fbApiDisconnect .live) : c.Allowed status ↔ status ≠ .disconnected :=
  ⟨fun h hd ↦ hne (h.2 hd), fun h ↦ ⟨hc, fun hd ↦ absurd hd h⟩⟩

/-! ## Entering DISCONNECTED -/

/-- In DISCONNECTED the callback ignores everything but a positive verdict. -/
theorem accountVerifiedCb_of_disconnected (enter : ConnectionState → ConnectionState)
    {s : ConnectionState} (h : s.status = .disconnected) {result : VerifyResult}
    (hr : result ≠ .verified true) : accountVerifiedCb enter s result = s := by
  unfold accountVerifiedCb
  split
  · exact absurd rfl hr
  · simp [h]
  · simp [h]

/-- Closing the channel in DISCONNECTED makes no call. -/
theorem closeAll_spec {s : ConnectionState} (h : s.status = .disconnected) (now : Bool) :
    (closeAll s now).status = s.status ∧ (closeAll s now).api = s.api ∧
      (closeAll s now).log = s.log := by
  have hfinished : (finished id s .closed now).status = s.status ∧
      (finished id s .closed now).api = s.api ∧ (finished id s .closed now).log = s.log := by
    rw [finished]
    dsimp only
    split
    · exact ⟨rfl, rfl, rfl⟩
    · split
      · rw [accountVerifiedCb_of_disconnected id (by exact h) (by decide)]
        exact ⟨rfl, rfl, rfl⟩
      · exact ⟨rfl, rfl, rfl⟩
  rw [closeAll]
  split
  · exact ⟨rfl, rfl, rfl⟩
  · rw [close]
    split
    · exact hfinished
    · exact ⟨rfl, rfl, rfl⟩

/-- **Entering DISCONNECTED** calls nothing but `fb_api_disconnect`. -/
theorem enterDisconnected_spec (now : Bool) (s : ConnectionState) :
    (enterDisconnected now s).status = .disconnected ∧ (enterDisconnected now s).api = s.api ∧
      (enterDisconnected now s).disconnecting = true ∧
      (enterDisconnected now s).log = s.log ++ [(.disconnected, .fbApiDisconnect s.api)] := by
  obtain ⟨hstatus, hapi, hlog⟩ :=
    closeAll_spec (s := { s with status := .disconnected }) rfl now
  refine ⟨hstatus, hapi, rfl, ?_⟩
  simp only [enterDisconnected, call, hstatus, hapi, hlog]

theorem inv_enterDisconnected (s : ConnectionState) (now : Bool) :
    Inv (enterDisconnected now s) := by
  obtain ⟨hstatus, -, hdisc, -⟩ := enterDisconnected_spec now s
  exact Inv.of_shutting hstatus hdisc

/-- The call is allowed exactly when there is an `FbApi`. -/
theorem orderly_enterDisconnected (s : ConnectionState) (now : Bool) :
    Orderly (enterDisconnected now s) ↔ Orderly s ∧ s.api = .live := by
  obtain ⟨-, -, -, hlog⟩ := enterDisconnected_spec now s
  rw [Orderly, hlog, Orderly, List.forall_mem_append, List.forall_mem_singleton]
  simp [Call.Allowed, Call.api]

/-! ## The callback of a verification -/

/-- A connection that was started and is not inside `fb_api_disconnect` has its `FbApi`
unless it is DISCONNECTED. -/
theorem Inv.api_live {s : ConnectionState} (h : Inv s) (hnew : s.status ≠ .new)
    (hd : s.status ≠ .disconnected) : s.api = .live := by
  refine (h.running ?_).1
  cases hs : s.status <;> simp_all

theorem Inv.accountVerifiedCb {s : ConnectionState} (h : Inv s) (hnew : s.status ≠ .new)
    (result : VerifyResult) (now : Bool) :
    Inv (accountVerifiedCb (enterDisconnected now) s result) := by
  unfold ConnectionState.accountVerifiedCb
  split
  · exact h.of_not_new hnew rfl rfl rfl
  all_goals
    split
    · exact inv_enterDisconnected _ now
    · exact h

/-- The callback makes a call that is not allowed exactly for a positive verdict in
DISCONNECTED. -/
theorem orderly_accountVerifiedCb {s : ConnectionState} (h : Inv s) (hnew : s.status ≠ .new)
    (hdisc : s.disconnecting = false) (result : VerifyResult) (now : Bool) :
    Orderly (ConnectionState.accountVerifiedCb (enterDisconnected now) s result) ↔
      Orderly s ∧ ¬ (s.status = .disconnected ∧ result = .verified true) := by
  by_cases hd : s.status = .disconnected
  · rcases eq_or_ne result (.verified true) with rfl | hr
    · have hapi := h.down hd hdisc
      rw [ConnectionState.accountVerifiedCb, orderly_call]
      simp [hd, Call.Allowed, Call.api]
    · rw [accountVerifiedCb_of_disconnected _ hd hr]
      simp [hr]
  · have hapi := h.api_live hnew hd
    rw [and_iff_left fun hc ↦ hd hc.1]
    unfold ConnectionState.accountVerifiedCb
    split
    · rw [orderly_call, and_iff_left ((allowed_iff (by simp [Call.api, hapi]) (by simp)).mpr hd)]
    all_goals
      rw [if_pos hd, orderly_enterDisconnected, and_iff_left (by exact hapi), orderly_call,
        and_iff_left ((allowed_iff (by simp [Call.api]) (by simp)).mpr hd)]

/-- A `finished` signal runs the callback if there is a task and it returns at once. -/
theorem finished_cases (enter : ConnectionState → ConnectionState) (s : ConnectionState)
    (result : VerifyResult) (now : Bool) :
    (s.manager.task = none ∧ finished enter s result now = s) ∨
      (s.manager.task.isSome ∧ now = true ∧ finished enter s result now =
        ConnectionState.accountVerifiedCb enter
          { s with manager := s.manager.channelFinishedCb.1 } result) ∨
      (s.manager.task.isSome ∧ now = false ∧ finished enter s result now =
        { s with
          manager := s.manager.channelFinishedCb.1
          pending := s.pending ++ [result] }) := by
  rw [finished, channelFinishedCb_snd]
  cases ht : s.manager.task with
  | none => exact .inl ⟨rfl, by simp [channelFinishedCb, ht]⟩
  | some t => cases now <;> simp

theorem Inv.finished {s : ConnectionState} (h : Inv s) (result : VerifyResult) (now : Bool) :
    Inv (finished (enterDisconnected now) s result now) := by
  rcases finished_cases (enterDisconnected now) s result now with
    ⟨-, heq⟩ | ⟨ht, -, heq⟩ | ⟨ht, -, heq⟩ <;> rw [heq]
  · exact h
  · have hnew := h.not_new_of_task ht
    have h' : Inv { s with manager := s.manager.channelFinishedCb.1 } :=
      h.of_not_new hnew rfl rfl rfl
    exact h'.accountVerifiedCb hnew result now
  · exact h.of_not_new (h.not_new_of_task ht) rfl rfl rfl

theorem orderly_finished {s : ConnectionState} (h : Inv s) (hdisc : s.disconnecting = false)
    (result : VerifyResult) (now : Bool) :
    Orderly (ConnectionState.finished (enterDisconnected now) s result now) ↔
      Orderly s ∧ ¬ (s.status = .disconnected ∧ s.manager.task.isSome ∧
        result = .verified true ∧ now = true) := by
  rcases finished_cases (enterDisconnected now) s result now with
    ⟨ht, heq⟩ | ⟨ht, hnow, heq⟩ | ⟨ht, hnow, heq⟩ <;> rw [heq]
  · simp [ht]
  · have hnew := h.not_new_of_task ht
    have h' : Inv { s with manager := s.manager.channelFinishedCb.1 } :=
      h.of_not_new hnew rfl rfl rfl
    rw [orderly_accountVerifiedCb h' hnew hdisc]
    simp only [ht, hnow, and_true, true_and]
    exact Iff.rfl
  · refine (orderly_congr (s := s) rfl).trans ?_
    simp [hnow]

/-! ## One step -/

theorem Inv.close {s : ConnectionState} (h : Inv s) (i : Nat) (now : Bool) :
    Inv (close (enterDisconnected now) s i now) := by
  rw [ConnectionState.close]
  split
  · exact (h.finished .closed now).with_manager fun hm ↦ by rw [hm, setClosing_init]
  · exact h

/-- A closed channel brings no positive verdict. -/
theorem orderly_close {s : ConnectionState} (h : Inv s) (hdisc : s.disconnecting = false)
    (i : Nat) (now : Bool) :
    Orderly (ConnectionState.close (enterDisconnected now) s i now) ↔ Orderly s := by
  rw [ConnectionState.close]
  split
  · refine (orderly_congr (s := ConnectionState.finished _ s .closed now) rfl).trans ?_
    rw [orderly_finished h hdisc]
    simp [VerifyResult.closed]
  · exact Iff.rfl

theorem Inv.changeStatus {s : ConnectionState} (h : Inv s) (hapi : s.api = .live)
    {status : ConnectionStatus} (hstatus : status ≠ .new) (reason : StatusReason) (now : Bool) :
    Inv (s.changeStatus status reason now) := by
  have hnew := h.not_new_of_live hapi
  unfold ConnectionState.changeStatus
  dsimp only
  split
  · exact h.of_not_new hnew rfl rfl rfl
  split
  · exact inv_enterDisconnected _ now
  next hd hdis =>
    have hdisc : s.disconnecting = false := by
      rw [Bool.eq_false_iff]
      exact fun hdisc ↦ hd (h.shutting hdisc)
    exact ⟨fun _ ↦ ⟨hapi, hdisc⟩, fun hc ↦ absurd hc (by simp [call, hdisc]),
      fun hc ↦ absurd hc hdis, fun hc ↦ absurd hc hstatus⟩

/-- A change of the status is allowed exactly before DISCONNECTED. -/
theorem orderly_changeStatus {s : ConnectionState} (hapi : s.api = .live)
    (status : ConnectionStatus) (reason : StatusReason) (now : Bool) :
    Orderly (s.changeStatus status reason now) ↔ Orderly s ∧ s.status ≠ .disconnected := by
  have hallowed : (Call.changeStatus status reason).Allowed s.status ↔
      s.status ≠ .disconnected := allowed_iff (by simp [Call.api]) (by simp)
  rw [← hallowed, ← orderly_call]
  unfold changeStatus
  dsimp only
  split
  · exact Iff.rfl
  split
  · rw [orderly_enterDisconnected, and_iff_left (by exact hapi)]
  · exact orderly_congr rfl

theorem Inv.handleSignal {s : ConnectionState} (h : Inv s) (hapi : s.api = .live)
    (signal : ApiSignal) (now : Bool) : Inv (s.handleSignal signal now) := by
  have hnew := h.not_new_of_live hapi
  cases signal with
  | auth => exact h.of_not_new hnew rfl rfl rfl
  | accountVerify url title message => exact h.of_not_new hnew rfl rfl rfl
  | connect => exact h.changeStatus hapi (by decide) _ now
  | error error => exact h.changeStatus hapi (by decide) _ now
  | contacts complete =>
      simp only [ConnectionState.handleSignal]
      split
      · exact h.of_not_new hnew rfl rfl rfl
      · exact h
  | presences => exact h

/-- **A signal** makes a call that is not allowed exactly in DISCONNECTED, unless it is
harmless. -/
theorem orderly_handleSignal {s : ConnectionState} (hapi : s.api = .live) (signal : ApiSignal)
    (now : Bool) :
    Orderly (s.handleSignal signal now) ↔
      Orderly s ∧ (s.status = .disconnected → Harmless signal) := by
  cases signal with
  | auth =>
      rw [handleSignal, orderly_call, allowed_iff (by simp [Call.api, hapi]) (by simp)]
      exact Iff.rfl
  | accountVerify url title message =>
      refine (orderly_congr (s := s) rfl).trans ?_
      simp [Harmless]
  | connect =>
      rw [handleSignal, orderly_changeStatus hapi]
      exact Iff.rfl
  | error error =>
      rw [handleSignal, orderly_changeStatus hapi]
      exact Iff.rfl
  | contacts complete =>
      cases complete with
      | false => simp [handleSignal, Harmless]
      | true =>
          by_cases hc : s.status = .connected
          · simp [handleSignal, hc]
          · simp only [handleSignal, true_and, if_pos hc, ne_eq]
            rw [orderly_call, allowed_iff (by simp [Call.api]) (by simp)]
            exact Iff.rfl
  | presences => simp [handleSignal, Harmless]

/-- `_iface_start_connecting` of a new connection. -/
theorem startConnecting_of_new {s : ConnectionState} (hnew : s.status = .new) :
    s.startConnecting = { s with
      status := .connecting
      api := .live
      log := s.log ++ [(.new, .changeStatus .connecting .requested)] ++
        [(.connecting, .fbApiAuth .live)] } := by
  simp [startConnecting, changeStatus, call, hnew]

theorem Inv.startConnecting {s : ConnectionState} (h : Inv s) : Inv s.startConnecting := by
  by_cases hnew : s.status = .new
  · rw [startConnecting_of_new hnew]
    exact ⟨fun _ ↦ ⟨rfl, (h.fresh hnew).2.1⟩, fun hc ↦ absurd hc (by simp [(h.fresh hnew).2.1]),
      fun hc ↦ absurd hc (by simp), fun hc ↦ absurd hc (by simp)⟩
  · rw [ConnectionState.startConnecting, if_neg hnew]
    exact h

theorem orderly_startConnecting (s : ConnectionState) :
    Orderly s.startConnecting ↔ Orderly s := by
  by_cases hnew : s.status = .new
  · rw [startConnecting_of_new hnew]
    simp only [Orderly, List.forall_mem_append, List.forall_mem_singleton]
    rw [allowed_iff (by simp [Call.api]) (by simp), allowed_iff (by simp [Call.api]) (by simp)]
    simp
  · rw [startConnecting, if_neg hnew]

theorem Inv.deliver {s : ConnectionState} (h : Inv s) (k : Nat) (now : Bool) :
    Inv (s.deliver k now) := by
  rw [ConnectionState.deliver]
  split
  · exact h
  · next result hk =>
      have hnew := h.not_new_of_pending hk
      have h' : Inv { s with pending := s.pending.eraseIdx k } := h.of_not_new hnew rfl rfl rfl
      exact h'.accountVerifiedCb hnew result now

theorem orderly_deliver {s : ConnectionState} (h : Inv s) (hdisc : s.disconnecting = false)
    (k : Nat) (now : Bool) :
    Orderly (s.deliver k now) ↔
      Orderly s ∧ ¬ (s.status = .disconnected ∧ s.pending[k]? = some (.verified true)) := by
  rw [ConnectionState.deliver]
  split
  · next hk => simp [hk]
  · next result hk =>
      have hnew := h.not_new_of_pending hk
      have h' : Inv { s with pending := s.pending.eraseIdx k } := h.of_not_new hnew rfl rfl rfl
      rw [orderly_accountVerifiedCb h' hnew hdisc, hk, Option.some.injEq]
      exact Iff.rfl

theorem Inv.disconnect {s : ConnectionState} (h : Inv s) (now : Bool) :
    Inv (s.disconnect now) := by
  rw [ConnectionState.disconnect]
  split
  · exact h
  · exact inv_enterDisconnected s now

/-- A client's disconnecting passes NULL exactly when the connection was not started. -/
theorem orderly_disconnect {s : ConnectionState} (h : Inv s) (now : Bool) :
    Orderly (s.disconnect now) ↔ Orderly s ∧ s.status ≠ .new := by
  rw [ConnectionState.disconnect]
  split
  · next hd => simp [hd]
  · next hd =>
      rw [orderly_enterDisconnected]
      refine and_congr_right fun _ ↦ ⟨h.not_new_of_live, fun hnew ↦ h.api_live hnew hd⟩

theorem Inv.emit {s : ConnectionState} (h : Inv s) (signal : ApiSignal) (now : Bool) :
    Inv (s.emit signal now) := by
  rw [ConnectionState.emit]
  split
  · next hapi => exact h.handleSignal hapi signal now
  · exact h

theorem orderly_emit (s : ConnectionState) (signal : ApiSignal) (now : Bool) :
    Orderly (s.emit signal now) ↔
      Orderly s ∧ (s.status = .disconnected → s.api = .live → Harmless signal) := by
  rw [ConnectionState.emit]
  split
  · next hapi =>
      rw [orderly_handleSignal hapi]
      simp [hapi]
  · next hapi => simp [hapi]

theorem Inv.stepInside {s : ConnectionState} (h : Inv s) (hdisc : s.disconnecting = true)
    (e : LifecycleEvent) : Inv (s.stepInside e) := by
  have hstatus := h.shutting hdisc
  cases e with
  | signal signal now => exact h.emit signal now
  | shutDown =>
      refine ⟨fun hc ↦ ?_, fun hc ↦ (by cases hc), fun _ _ ↦ by simp [ConnectionState.stepInside],
        fun hc ↦ ?_⟩ <;> simp [ConnectionState.stepInside, hstatus] at hc
  | startConnecting | accountVerified | close | destroyed | deliver | disconnect => exact h

theorem Inv.stepOutside {s : ConnectionState} (h : Inv s) (e : LifecycleEvent) :
    Inv (s.stepOutside e) := by
  cases e with
  | startConnecting => exact h.startConnecting
  | signal signal now => exact h.emit signal now
  | accountVerified i verified now =>
      simp only [ConnectionState.stepOutside, accountVerified]
      split
      · exact h.finished _ now
      · exact h
  | close i now => exact h.close i now
  | destroyed i => exact h.with_manager fun hm ↦ by rw [hm, endClose_init]
  | deliver k now => exact h.deliver k now
  | disconnect now => exact h.disconnect now
  | shutDown => exact h

/-- Every step keeps the invariant. -/
theorem Inv.step {s : ConnectionState} (h : Inv s) (e : LifecycleEvent) : Inv (s.step e) := by
  rw [ConnectionState.step]
  split
  · next hdisc => exact h.stepInside hdisc e
  · exact h.stepOutside e

theorem orderly_stepInside {s : ConnectionState} (h : Inv s) (hdisc : s.disconnecting = true)
    (e : LifecycleEvent) : Orderly (s.stepInside e) ↔ Orderly s ∧ Late s e := by
  have hstatus := h.shutting hdisc
  cases e with
  | signal signal now =>
      rw [stepInside, orderly_emit]
      simp [Late, hstatus, hdisc]
  | shutDown => exact (orderly_congr (s := s) rfl).trans (by simp [Late])
  | startConnecting | accountVerified | close | destroyed | deliver | disconnect =>
      simp [stepInside, Late, hdisc, hstatus]

theorem orderly_stepOutside {s : ConnectionState} (h : Inv s) (hdisc : s.disconnecting = false)
    (e : LifecycleEvent) : Orderly (s.stepOutside e) ↔ Orderly s ∧ Late s e := by
  cases e with
  | startConnecting => simpa [stepOutside, Late] using orderly_startConnecting s
  | signal signal now =>
      have hlive : s.status = .disconnected → s.api = .live → Harmless signal :=
        fun hd hapi ↦ absurd hapi (h.down hd hdisc)
      rw [stepOutside, orderly_emit, and_iff_left hlive]
      simp [Late, hdisc]
  | accountVerified i verified now =>
      simp only [stepOutside, accountVerified]
      split
      · next hi =>
          rw [orderly_finished h hdisc]
          simp [Late, hdisc, hi]
      · next hi => simp [Late, hi]
  | close i now => simpa [stepOutside, Late] using orderly_close h hdisc i now
  | destroyed i => exact (orderly_congr (s := s) rfl).trans (by simp [Late])
  | deliver k now =>
      rw [stepOutside, orderly_deliver h hdisc]
      simp [Late, hdisc]
  | disconnect now => exact orderly_disconnect h now
  | shutDown => simp [stepOutside, Late]

/-- **One step** makes only calls that are allowed, exactly when it meets the
condition. -/
theorem orderly_step {s : ConnectionState} (h : Inv s) (e : LifecycleEvent) :
    Orderly (s.step e) ↔ Orderly s ∧ Late s e := by
  rw [step]
  split
  · next hdisc => exact orderly_stepInside h hdisc e
  · next hdisc => exact orderly_stepOutside h (by simpa using hdisc) e

/-- **When a connection keeps quiet after DISCONNECTED.**  Every call that a run makes
is allowed, if and only if every event of the run meets its condition: inside
`fb_api_disconnect` no signal but account-verify, presences and incomplete contacts,
in DISCONNECTED no positive verdict for `_account_verified_cb`, and no disconnecting of
a connection that was not started. -/
theorem lifecycle_iff (es : List LifecycleEvent) :
    Orderly (es.foldl step init) ↔ Steps step Late init es := by
  rw [foldl_iff (P := Inv) (fun _ e h ↦ h.step e) (fun _ e h ↦ orderly_step h e) inv_init es]
  exact and_iff_right fun c hc ↦ (by cases hc)

/-- A positive verdict is still pending when the client disconnects: its callback
authenticates with the pointer that was released. -/
theorem auth_after_disconnected :
    ¬ Orderly ([.startConnecting, .signal (.accountVerify "https://m" "Verify" "Please") true,
      .accountVerified 0 true false, .disconnect true, .shutDown, .deliver 0 true].foldl
        step init) := by
  intro h
  have hallowed := h (.disconnected, .fbApiAuth .null) (by decide)
  cases hallowed.1 .null rfl

end ConnectionState

end TelepathyFacebook
