import TelepathyFacebook.ContactQueries

/-!
# Avatar retrieval

The chains of requests of `tp/avatars.c`.  `fb_connection_avatars_request_avatars`
queues the contacts that have an icon and requests the icon of the first;
`avatar_cb` handles a reply: it announces the data under the token of the contact,
and requests the icon of the next contact of the queue.

The queue holds pointers to records of the contact table.  The icon of a contact is
read when its request is created and the token when the reply arrives, and contact
batches rewrite records in between.  Presence batches write only `active`, which
nothing here reads.

Two fields of the model are bookkeeping, and no step depends on them: `report` is
the last report that every record was filled from, and `origin` is the report that
the URL of a request comes from.

* `avatars_iff`: every URL is there and every announcement carries the token of the
  report its URL comes from, exactly when the reports that arrive while a request is
  out leave the token as it was, and no contact loses its icon before its turn.
* `matched_of_undisturbed`: so it is in a run whose batches leave the token of a contact
  whose request is out, and the icons of those that wait.
-/

namespace TelepathyFacebook

open Runs ContactList

/-- A request that `fb_http_request_new` was called for. -/
structure AvatarRequest where
  url : Option String
  /-- The report that the URL was taken from. -/
  origin : Option FbApiUser
deriving DecidableEq, Repr

/-- `struct avatar_request_queue`, with its outstanding request. -/
structure AvatarRequestQueue where
  queue : List Ref
  request : AvatarRequest
  /-- `idle_send_req` has run. -/
  sent : Bool
deriving DecidableEq, Repr

/-- An `AvatarRetrieved` signal, with the request that it answers. -/
structure AvatarRetrieved where
  handle : TpHandle
  token : Option String
  avatar : List UInt8
  mimeType : String
  request : AvatarRequest
deriving DecidableEq, Repr

/-- A connection with its chains of requests. -/
structure Avatars where
  list : ContactList
  /-- The last report that each record was filled from. -/
  report : Ref → Option FbApiUser
  /-- The status of the connection is CONNECTED. -/
  connected : Bool
  chains : List AvatarRequestQueue
  /-- The requests that were created. -/
  created : List AvatarRequest
  /-- The signals that were emitted. -/
  retrieved : List AvatarRetrieved

/-- What happens to the chains. -/
inductive AvatarsEvent where
  /-- `fb_contact_list_fb_contacts_changed`. -/
  | contacts (myUid : FbId) (users : List FbApiUser)
  /-- `fb_connection_avatars_request_avatars`. -/
  | requestAvatars (contacts : List TpHandle)
  /-- `idle_send_req` for the request of a chain. -/
  | send (i : Nat)
  /-- `avatar_cb` for the request of a chain, with the status and data of the reply. -/
  | reply (i : Nat) (code : Int) (data : Option (List UInt8))
  /-- The connection enters or leaves CONNECTED. -/
  | status (connected : Bool)

namespace Avatars

variable (E : ContactEnv)

/-- No contact, no request. -/
def init : Avatars := ⟨ContactList.init E, fun _ ↦ none, false, [], [], []⟩

/-- The bookkeeping of one report. -/
def file (myUid : FbId) (report : Ref → Option FbApiUser) (user : FbApiUser) :
    Ref → Option FbApiUser :=
  Function.update report (recordRef E myUid user) (some user)

/-- The report that the record at the tail of the queue was filled from. -/
def origin (s : Avatars) (queue : List Ref) : Option FbApiUser := queue.getLast?.bind s.report

theorem origin_of_getLast? {s : Avatars} {queue : List Ref} {ref : Ref}
    (h : queue.getLast? = some ref) : s.origin queue = s.report ref := by
  rw [origin, h, Option.bind_some]

/-- The first half of `avatar_cb`: the signal it emits, if it does. -/
def announce (s : Avatars) (chain : AvatarRequestQueue) (code : Int)
    (data : Option (List UInt8)) : Option (List AvatarRetrieved) :=
  if s.connected ∧ code = 200 then
    match data with
    | none => some []
    | some avatar =>
        (chain.queue.getLast?.bind s.list.deref).map fun c ↦
          [⟨E.ensureHandle c.uid, c.avatarToken, avatar, "image/jpeg", chain.request⟩]
  else some []

/-- The second half of `avatar_cb`: the chain ends, or goes on with the next contact. -/
def continueChain (s : Avatars) (i : Nat) (queue : List Ref) : Option Avatars :=
  if queue = [] ∨ ¬ s.connected then some { s with chains := s.chains.eraseIdx i }
  else
    (tailIcon s.list queue).map fun url ↦
      let request : AvatarRequest := ⟨url, s.origin queue⟩
      { s with
        chains := s.chains.set i ⟨queue, request, false⟩
        created := s.created ++ [request] }

/-- `avatar_cb`. -/
def avatarCb (s : Avatars) (i : Nat) (chain : AvatarRequestQueue) (code : Int)
    (data : Option (List UInt8)) : Option Avatars :=
  (announce E s chain code data).bind fun retrieved ↦
    continueChain { s with retrieved := s.retrieved ++ retrieved } i chain.queue.dropLast

/-- One event; `none` is a NULL dereference. -/
def step (s : Avatars) : AvatarsEvent → Option Avatars
  | .contacts myUid users =>
      some { s with
        list := (contactsChanged E myUid s.list users).1
        report := users.foldl (file E myUid) s.report }
  | .requestAvatars contacts =>
      (requestAvatars E s.connected s.list contacts).map fun
        | .ok (some (queue, url)) =>
            let request : AvatarRequest := ⟨url, s.origin queue⟩
            { s with
              chains := s.chains ++ [⟨queue, request, false⟩]
              created := s.created ++ [request] }
        | _ => s
  | .send i =>
      match s.chains[i]? with
      | none => some s
      | some chain => some { s with chains := s.chains.set i { chain with sent := true } }
  | .reply i code data =>
      match s.chains[i]? with
      | none => some s
      | some chain => if chain.sent then avatarCb E s i chain code data else some s
  | .status connected => some { s with connected := connected }

/-! ## What is asked of a run -/

/-- Every request has a URL, and every signal carries the token of the report that
its URL comes from. -/
structure Matched (s : Avatars) : Prop where
  url : ∀ request ∈ s.created, request.url.isSome
  token : ∀ signal ∈ s.retrieved, ∃ user, signal.request.origin = some user ∧
    user.icon = signal.request.url ∧ signal.token = getAvatarToken E user

/-- The token that a record has after a report. -/
def tokenOf (report : Option FbApiUser) : Option String := report.bind (getAvatarToken E)

/-- The condition on a reply while connected.  If it brings data, the contact's last
report has the token of the report that the URL comes from; and if the chain goes
on, the last report of the next contact has an icon. -/
def Fresh (s : Avatars) : AvatarsEvent → Prop
  | .reply i code data => ∀ chain, s.chains[i]? = some chain → chain.sent → s.connected →
      (code = 200 → data.isSome →
        tokenOf E (s.origin chain.queue) = tokenOf E chain.request.origin) ∧
      (chain.queue.dropLast ≠ [] →
        ((s.origin chain.queue.dropLast).bind FbApiUser.icon).isSome)
  | _ => True

/-! ## Invariants -/

/-- Records hold the icon and the token of their last report. -/
def Recorded (list : ContactList) (report : Ref → Option FbApiUser) : Prop :=
  ∀ ref c, list.deref ref = some c →
    c.icon = (report ref).bind FbApiUser.icon ∧ c.avatarToken = tokenOf E (report ref)

/-- A request has the URL of the report it comes from. -/
def AvatarRequest.Sourced (request : AvatarRequest) : Prop :=
  request.url = request.origin.bind FbApiUser.icon

/-- A chain is well-formed: it has a contact, whose records exist, and its request was
created. -/
structure ChainOk (s : Avatars) (chain : AvatarRequestQueue) : Prop where
  nonempty : chain.queue ≠ []
  live : ∀ ref ∈ chain.queue, (s.list.deref ref).isSome
  sourced : AvatarRequest.Sourced chain.request
  created : chain.request ∈ s.created

/-- What holds in every state of every run. -/
structure Inv (s : Avatars) : Prop where
  recorded : Recorded E s.list s.report
  chains : ∀ chain ∈ s.chains, ChainOk s chain

variable {E}

theorem inv_init : Inv E (init E) where
  recorded ref c hc := by
    cases ref with
    | me =>
        obtain rfl := Option.some.inj hc
        exact ⟨rfl, rfl⟩
    | entry handle => simp [init, ContactList.init, deref] at hc
  chains _ hc := by cases hc

theorem Recorded.contactChanged {myUid : FbId} {b : Batch} {report : Ref → Option FbApiUser}
    (h : Recorded E b.list report) (user : FbApiUser) :
    Recorded E (contactChanged E myUid b user).list (file E myUid report user) := by
  intro ref c hc
  rw [deref_contactChanged] at hc
  split at hc
  · next hr =>
      obtain rfl := Option.some.inj hc
      rw [hr, file, Function.update_self]
      exact ⟨rfl, rfl⟩
  · next hr =>
      rw [file, Function.update_of_ne hr]
      exact h ref c hc

theorem Recorded.runBatch {list : ContactList} {report : Ref → Option FbApiUser}
    (h : Recorded E list report) (myUid : FbId) (users : List FbApiUser) :
    Recorded E (runBatch E myUid list users).list (users.foldl (file E myUid) report) :=
  List.foldl_rel (r := fun (b : Batch) report ↦ Recorded E b.list report) h
    fun user _ _ _ hb ↦ hb.contactChanged user

/-- A batch removes no record. -/
theorem isSome_deref_runBatch {list : ContactList} {ref : Ref} (h : (list.deref ref).isSome)
    (myUid : FbId) (users : List FbApiUser) :
    ((runBatch E myUid list users).list.deref ref).isSome := by
  refine foldl_invariant (P := fun b : Batch ↦ ((b.list.deref ref).isSome : Prop))
    (fun b user hb ↦ ?_) h users
  rw [deref_contactChanged]
  split
  · rfl
  · exact hb

theorem ChainOk.mono {s s' : Avatars} {chain : AvatarRequestQueue} (h : ChainOk s chain)
    (hlist : ∀ ref, (s.list.deref ref).isSome → (s'.list.deref ref).isSome)
    (hcreated : ∀ request ∈ s.created, request ∈ s'.created) : ChainOk s' chain :=
  ⟨h.nonempty, fun ref href ↦ hlist ref (h.live ref href), h.sourced, hcreated _ h.created⟩

/-- The icon at the tail of a queue is that of the last report. -/
theorem tailIcon_of_live {s : Avatars} (h : Recorded E s.list s.report) {queue : List Ref}
    (hne : queue ≠ []) (hlive : ∀ ref ∈ queue, (s.list.deref ref).isSome) :
    tailIcon s.list queue = some ((s.origin queue).bind FbApiUser.icon) := by
  obtain ⟨init, ref, rfl⟩ := (List.eq_nil_or_concat queue).resolve_left hne
  obtain ⟨c, hc⟩ := Option.isSome_iff_exists.mp (hlive ref (by simp))
  simp [tailIcon, origin, hc, (h ref c hc).1]

/-! ## Spec lemmas -/

/-- A new chain has the queue of the contacts with an icon, and requests the icon at
its tail. -/
theorem requestAvatars_eq_ok {connected : Bool} {list : ContactList} {contacts : List TpHandle}
    {queue : List Ref} {url : Option String}
    (h : requestAvatars E connected list contacts = some (.ok (some (queue, url)))) :
    avatarQueue E list contacts = some queue ∧ tailIcon list queue = some url := by
  unfold requestAvatars at h
  split at h
  · cases h
  split at h
  · cases h
  split at h
  · cases h
  obtain ⟨queue', hqueue, h⟩ := Option.bind_eq_some_iff.mp h
  obtain ⟨url', hurl, h⟩ := Option.map_eq_some_iff.mp h
  obtain ⟨rfl, rfl⟩ : queue' = queue ∧ url' = url := by simpa using h
  exact ⟨hqueue, hurl⟩

/-- The first half of `avatar_cb` signals data that came with status 200, under the
token of the contact's last report. -/
theorem announce_spec {s : Avatars} (h : Recorded E s.list s.report)
    {chain : AvatarRequestQueue} (hc : ChainOk s chain) (code : Int)
    (data : Option (List UInt8)) :
    ∃ l, announce E s chain code data = some l ∧
      (∀ signal ∈ l, signal.request = chain.request ∧
        signal.token = tokenOf E (s.origin chain.queue)) ∧
      (l ≠ [] ↔ s.connected ∧ code = 200 ∧ data.isSome) := by
  unfold announce
  split
  · next hok =>
      cases data with
      | none => exact ⟨[], rfl, by simp, by simp⟩
      | some avatar =>
          obtain ⟨init, ref, hq⟩ := (List.eq_nil_or_concat chain.queue).resolve_left hc.nonempty
          obtain ⟨c, hderef⟩ := Option.isSome_iff_exists.mp (hc.live ref (by simp [hq]))
          refine ⟨[⟨E.ensureHandle c.uid, c.avatarToken, avatar, "image/jpeg", chain.request⟩],
            by simp [hq, hderef], ?_, by simp [hok]⟩
          intro signal hsignal
          obtain rfl := List.mem_singleton.mp hsignal
          exact ⟨rfl, by simp [origin, hq, (h ref c hderef).2]⟩
  · next hok => exact ⟨[], rfl, by simp, by simpa using fun h1 h2 ↦ absurd ⟨h1, h2⟩ hok⟩

/-- The second half of `avatar_cb` ends the chain, or requests the icon of the last
report of the next contact. -/
theorem continueChain_spec {s : Avatars} (h : Recorded E s.list s.report) {queue : List Ref}
    (hlive : ∀ ref ∈ queue, (s.list.deref ref).isSome) (i : Nat) :
    ∃ chains requests, continueChain s i queue =
        some { s with chains := chains, created := s.created ++ requests } ∧
      (∀ request ∈ requests, request.origin = s.origin queue ∧
        AvatarRequest.Sourced request) ∧
      (requests ≠ [] ↔ s.connected ∧ queue ≠ []) ∧
      ∀ chain ∈ chains, chain ∈ s.chains ∨
        queue ≠ [] ∧ chain.queue = queue ∧ chain.request ∈ requests := by
  rw [continueChain]
  split
  · next hend =>
      refine ⟨s.chains.eraseIdx i, [], by simp, by simp, ?_,
        fun chain hchain ↦ .inl (List.mem_of_mem_eraseIdx hchain)⟩
      rcases hend with hend | hend <;> simp [hend]
  · next hgo =>
      obtain ⟨hne, hconn⟩ := not_or.mp hgo
      rw [not_not] at hconn
      rw [tailIcon_of_live h hne hlive]
      refine ⟨_, [⟨(s.origin queue).bind FbApiUser.icon, s.origin queue⟩], rfl, ?_,
        by simp [hne, hconn], fun chain hchain ↦ ?_⟩
      · intro request hrequest
        obtain rfl := List.mem_singleton.mp hrequest
        exact ⟨rfl, rfl⟩
      · rcases List.mem_or_eq_of_mem_set hchain with hold | rfl
        · exact .inl hold
        · exact .inr ⟨hne, rfl, by simp⟩

/-- **What a reply does.**  It never meets a missing record. -/
theorem avatarCb_spec {s : Avatars} (h : Inv E s) {chain : AvatarRequestQueue}
    (hmem : chain ∈ s.chains) (i : Nat) (code : Int) (data : Option (List UInt8)) :
    ∃ chains requests l, avatarCb E s i chain code data =
        some { s with
          chains := chains
          created := s.created ++ requests
          retrieved := s.retrieved ++ l } ∧
      (∀ signal ∈ l, signal.request = chain.request ∧
        signal.token = tokenOf E (s.origin chain.queue)) ∧
      (l ≠ [] ↔ s.connected ∧ code = 200 ∧ data.isSome) ∧
      (∀ request ∈ requests, request.origin = s.origin chain.queue.dropLast ∧
        AvatarRequest.Sourced request) ∧
      (requests ≠ [] ↔ s.connected ∧ chain.queue.dropLast ≠ []) ∧
      ∀ chain' ∈ chains, chain' ∈ s.chains ∨ chain.queue.dropLast ≠ [] ∧
        chain'.queue = chain.queue.dropLast ∧ chain'.request ∈ requests := by
  have hc := h.chains chain hmem
  obtain ⟨l, hl, hsignal, hsome⟩ := announce_spec h.recorded hc code data
  obtain ⟨chains, requests, hgo, hrequest, hnext, hchains⟩ :=
    continueChain_spec (s := { s with retrieved := s.retrieved ++ l }) h.recorded
      (fun ref href ↦ hc.live ref (List.mem_of_mem_dropLast href)) i
  exact ⟨chains, requests, l, by rw [avatarCb, hl, Option.bind_some, hgo], hsignal, hsome,
    hrequest, hnext, hchains⟩

variable (E) in
/-- The request of a chain was created in a step, for the contact at the tail of its
queue. -/
structure Requested (s s' : Avatars) (chain : AvatarRequestQueue) : Prop where
  nonempty : chain.queue ≠ []
  origin : chain.request.origin = s.origin chain.queue
  sourced : AvatarRequest.Sourced chain.request
  created : chain.request ∈ s'.created

variable (E) in
/-- Where a chain comes from that is there after a step. -/
inductive ChainFrom (s s' : Avatars) (chain' : AvatarRequestQueue) : Prop where
  /-- It was there. -/
  | old (chain : AvatarRequestQueue) (mem : chain ∈ s.chains)
      (queue : chain'.queue = chain.queue) (request : chain'.request = chain.request)
  /-- It is new. -/
  | new (contacts : List TpHandle) (queue : avatarQueue E s.list contacts = some chain'.queue)
      (requested : Requested s s' chain')
  /-- It is a chain that was there, one contact on. -/
  | next (chain : AvatarRequestQueue) (mem : chain ∈ s.chains)
      (queue : chain'.queue = chain.queue.dropLast) (requested : Requested s s' chain')

/-- A step that leaves the records and the requests alone; every chain comes from
somewhere. -/
structure LeavesRecords (E : ContactEnv) (s s' : Avatars) : Prop where
  list : s'.list = s.list
  report : s'.report = s.report
  created : ∀ request ∈ s.created, request ∈ s'.created
  chains : ∀ chain' ∈ s'.chains, ChainFrom E s s' chain'

theorem LeavesRecords.refl (s : Avatars) : LeavesRecords E s s :=
  ⟨rfl, rfl, fun _ ↦ id, fun chain hchain ↦ .old chain hchain rfl rfl⟩

/-- **What a step does.** -/
theorem step_cases {s s' : Avatars} (h : Inv E s) {e : AvatarsEvent}
    (hs : step E s e = some s') :
    (∃ myUid users, e = .contacts myUid users ∧
      s' = { s with
        list := (contactsChanged E myUid s.list users).1
        report := users.foldl (file E myUid) s.report }) ∨ LeavesRecords E s s' := by
  cases e with
  | contacts myUid users => exact .inl ⟨myUid, users, rfl, (Option.some.inj hs).symm⟩
  | requestAvatars contacts =>
      obtain ⟨answer, ha, rfl⟩ := Option.map_eq_some_iff.mp hs
      split
      · next queue url =>
          obtain ⟨hqueue, hurl⟩ := requestAvatars_eq_ok ha
          have hlive : ∀ ref ∈ queue, (s.list.deref ref).isSome := by
            intro ref href
            obtain ⟨handle, -, ⟨c, hc, -⟩, rfl⟩ := (mem_avatarQueue _ _ hqueue ref).mp href
            exact Option.isSome_iff_exists.mpr ⟨c, hc⟩
          have hne : queue ≠ [] := by
            rintro rfl
            cases hurl
          rw [tailIcon_of_live h.recorded hne hlive] at hurl
          refine .inr ⟨rfl, rfl, fun _ ↦ List.mem_append_left _, fun chain hchain ↦ ?_⟩
          rcases List.mem_append.mp hchain with hold | hnew
          · exact .old chain hold rfl rfl
          · obtain rfl := List.mem_singleton.mp hnew
            exact .new contacts hqueue ⟨hne, rfl, (Option.some.inj hurl).symm, by simp⟩
      · exact .inr (.refl s)
  | send i =>
      simp only [Avatars.step] at hs
      split at hs <;> obtain rfl := Option.some.inj hs
      · exact .inr (.refl s)
      · next chain hi =>
          refine .inr ⟨rfl, rfl, fun _ ↦ id, fun chain' hchain ↦ ?_⟩
          rcases List.mem_or_eq_of_mem_set hchain with hold | rfl
          · exact .old chain' hold rfl rfl
          · exact .old chain (List.mem_of_getElem? hi) rfl rfl
  | reply i code data =>
      simp only [Avatars.step] at hs
      split at hs
      · obtain rfl := Option.some.inj hs
        exact .inr (.refl s)
      next chain hi =>
        split at hs
        · have hmem := List.mem_of_getElem? hi
          obtain ⟨chains, requests, l, hcb, -, -, hrequest, -, hchains⟩ :=
            avatarCb_spec h hmem i code data
          obtain rfl := Option.some.inj (hcb.symm.trans hs)
          refine .inr ⟨rfl, rfl, fun _ ↦ List.mem_append_left _, fun chain' hchain ↦ ?_⟩
          rcases hchains chain' hchain with hold | ⟨hne, hqueue, hreq⟩
          · exact .old chain' hold rfl rfl
          · obtain ⟨horigin, hsourced⟩ := hrequest _ hreq
            exact .next chain hmem hqueue ⟨by rwa [hqueue], by rw [horigin, hqueue], hsourced,
              List.mem_append_right _ hreq⟩
        · obtain rfl := Option.some.inj hs
          exact .inr (.refl s)
  | status connected =>
      obtain rfl := Option.some.inj hs
      exact .inr ⟨rfl, rfl, fun _ ↦ id, fun chain hchain ↦ .old chain hchain rfl rfl⟩

/-- Every step keeps the invariants. -/
theorem Inv.step {s s' : Avatars} (h : Inv E s) {e : AvatarsEvent}
    (hs : step E s e = some s') : Inv E s' := by
  obtain ⟨myUid, users, rfl, rfl⟩ | hleaves := step_cases h hs
  · exact ⟨h.recorded.runBatch myUid users, fun chain hchain ↦ (h.chains chain hchain).mono
      (fun _ href ↦ isSome_deref_runBatch href myUid users) fun _ ↦ id⟩
  refine ⟨by rw [hleaves.list, hleaves.report]; exact h.recorded, fun chain' hchain ↦ ?_⟩
  have hlive {queue : List Ref} (hq : ∀ ref ∈ queue, (s.list.deref ref).isSome) :
      ∀ ref ∈ queue, (s'.list.deref ref).isSome := by rwa [hleaves.list]
  cases hleaves.chains chain' hchain with
  | old chain hmem hqueue hrequest =>
      have hc := h.chains chain hmem
      exact ⟨by rw [hqueue]; exact hc.nonempty, hlive (by rw [hqueue]; exact hc.live),
        by rw [hrequest]; exact hc.sourced,
        hleaves.created _ (by rw [hrequest]; exact hc.created)⟩
  | new contacts hqueue hrequested =>
      refine ⟨hrequested.nonempty, hlive fun ref href ↦ ?_, hrequested.sourced,
        hrequested.created⟩
      obtain ⟨handle, -, ⟨c, hc, -⟩, rfl⟩ := (mem_avatarQueue _ _ hqueue ref).mp href
      exact Option.isSome_iff_exists.mpr ⟨c, hc⟩
  | next chain hmem hqueue hrequested =>
      refine ⟨hrequested.nonempty, hlive fun ref href ↦ ?_, hrequested.sourced,
        hrequested.created⟩
      rw [hqueue] at href
      exact (h.chains chain hmem).live ref (List.mem_of_mem_dropLast href)

/-! ## Matched data and tokens -/

/-- A signal is matched exactly when the last report has the token of the report that
the URL comes from. -/
theorem matched_signal_iff {s : Avatars} (hm : Matched E s) {chain : AvatarRequestQueue}
    (hc : ChainOk s chain) {signal : AvatarRetrieved} (hreq : signal.request = chain.request)
    {report : Option FbApiUser} (htoken : signal.token = tokenOf E report) :
    (∃ user, signal.request.origin = some user ∧ user.icon = signal.request.url ∧
        signal.token = getAvatarToken E user) ↔
      tokenOf E report = tokenOf E chain.request.origin := by
  have hurl := hm.url _ hc.created
  have hsourced : chain.request.url = chain.request.origin.bind FbApiUser.icon := hc.sourced
  rw [hreq, htoken]
  cases horigin : chain.request.origin with
  | none => simp [hsourced, horigin] at hurl
  | some user => simp [hsourced, horigin, tokenOf]

/-- A property that says the same of all members. -/
theorem forall_mem_iff_of_same {α : Type} {l : List α} {p : α → Prop} {q : Prop}
    (h : ∀ a ∈ l, (p a ↔ q)) : (∀ a ∈ l, p a) ↔ (l ≠ [] → q) := by
  constructor
  · intro hp hne
    obtain ⟨a, ha⟩ := List.exists_mem_of_ne_nil l hne
    exact (h a ha).mp (hp a ha)
  · intro hq a ha
    exact (h a ha).mpr (hq (List.ne_nil_of_mem ha))

/-- A reply keeps everything matched exactly when it is fresh. -/
theorem matched_avatarCb_iff {s : Avatars} (h : Inv E s) (hm : Matched E s)
    {chain : AvatarRequestQueue} (hmem : chain ∈ s.chains) (i : Nat) (code : Int)
    (data : Option (List UInt8)) :
    (∀ s' ∈ avatarCb E s i chain code data, Matched E s') ↔
      (s.connected →
        (code = 200 → data.isSome →
          tokenOf E (s.origin chain.queue) = tokenOf E chain.request.origin) ∧
        (chain.queue.dropLast ≠ [] →
          ((s.origin chain.queue.dropLast).bind FbApiUser.icon).isSome)) := by
  obtain ⟨chains, requests, l, hcb, hsignal, hl, hrequest, hnext, -⟩ :=
    avatarCb_spec h hmem i code data
  have hsignals := forall_mem_iff_of_same fun signal hs ↦
    matched_signal_iff hm (h.chains chain hmem) (hsignal signal hs).1 (hsignal signal hs).2
  have hrequests : (∀ request ∈ requests, request.url.isSome) ↔
      (requests ≠ [] → ((s.origin chain.queue.dropLast).bind FbApiUser.icon).isSome) := by
    apply forall_mem_iff_of_same
    intro request hr
    have hsourced : request.url = request.origin.bind FbApiUser.icon := (hrequest request hr).2
    rw [hsourced, (hrequest request hr).1]
  rw [hl] at hsignals
  rw [hnext] at hrequests
  rw [hcb]
  constructor
  · intro hnew hconn
    have hm' := hnew _ rfl
    exact ⟨fun hcode hdata ↦ hsignals.mp
        (fun signal hs ↦ hm'.token signal (List.mem_append_right _ hs)) ⟨hconn, hcode, hdata⟩,
      fun hne ↦ hrequests.mp
        (fun request hr ↦ hm'.url request (List.mem_append_right _ hr)) ⟨hconn, hne⟩⟩
  · rintro hfresh s' ⟨⟩
    refine ⟨fun request hr ↦ ?_, fun signal hs ↦ ?_⟩
    · rcases List.mem_append.mp hr with hold | hnew
      · exact hm.url request hold
      · exact hrequests.mpr (fun hgo ↦ (hfresh hgo.1).2 hgo.2) request hnew
    · rcases List.mem_append.mp hs with hold | hnew
      · exact hm.token signal hold
      · exact hsignals.mpr (fun hgo ↦ (hfresh hgo.1).1 hgo.2.1 hgo.2.2) signal hnew

/-- **One step** keeps everything matched exactly when the reply it handles is
fresh. -/
theorem matched_step_iff {s : Avatars} (h : Inv E s) (hm : Matched E s) (e : AvatarsEvent) :
    (∀ s' ∈ step E s e, Matched E s') ↔ Fresh E s e := by
  cases e with
  | contacts myUid users =>
      refine iff_of_true ?_ trivial
      rintro s' ⟨⟩
      exact ⟨hm.url, hm.token⟩
  | requestAvatars contacts =>
      refine iff_of_true ?_ trivial
      intro s' hs
      obtain ⟨answer, ha, rfl⟩ := Option.map_eq_some_iff.mp hs
      split
      · next queue url =>
          obtain ⟨hqueue, hurl⟩ := requestAvatars_eq_ok ha
          refine ⟨fun request hrequest ↦ ?_, hm.token⟩
          rcases List.mem_append.mp hrequest with hold | hnew
          · exact hm.url request hold
          · obtain rfl := List.mem_singleton.mp hnew
            -- Only contacts with an icon are queued.
            obtain ⟨c, hc, rfl⟩ := Option.map_eq_some_iff.mp hurl
            obtain ⟨ref, href, hderef⟩ := Option.bind_eq_some_iff.mp hc
            obtain ⟨handle, -, ⟨c', hc', hicon⟩, rfl⟩ :=
              (mem_avatarQueue _ _ hqueue ref).mp (List.mem_of_getLast? href)
            obtain rfl : c' = c := Option.some.inj (hc'.symm.trans hderef)
            exact hicon
      · exact hm
  | send i =>
      refine iff_of_true ?_ trivial
      intro s' hs
      simp only [Avatars.step] at hs
      split at hs <;> obtain rfl := Option.some.inj hs
      · exact hm
      · exact ⟨hm.url, hm.token⟩
  | reply i code data =>
      simp only [Avatars.step, Fresh]
      cases hi : s.chains[i]? with
      | none => simpa using hm
      | some chain =>
          by_cases hsent : chain.sent = true
          · simpa [hsent] using
              matched_avatarCb_iff h hm (List.mem_of_getElem? hi) i code data
          · simpa [hsent] using hm
  | status connected =>
      refine iff_of_true ?_ trivial
      rintro s' ⟨⟩
      exact ⟨hm.url, hm.token⟩

/-- **When data and tokens belong together.**  In every state of a run every request
has a URL and every signal carries the token of the report that its URL comes from,
if and only if every reply of the run is fresh. -/
theorem avatars_iff (es : List AvatarsEvent) :
    Always (crashing (step E)) (fun t ↦ ∀ s ∈ t, Matched E s) (some (init E)) es ↔
      Steps (crashing (step E)) (fun t e ↦ ∀ s ∈ t, Fresh E s e) (some (init E)) es := by
  refine always_iff (P := fun t ↦ ∀ s ∈ t, Inv E s) ?_ ?_ ?_ ?_ es
  · exact fun t e ht ↦ forall_mem_crashing fun s hs s' hs' ↦ (ht s hs).step hs'
  · intro t e ht hm
    cases t with
    | none => simp
    | some s => simpa using matched_step_iff (ht s rfl) (hm s rfl) e
  · rintro s ⟨⟩
    exact inv_init
  · rintro s ⟨⟩
    exact ⟨fun _ hr ↦ (by cases hr), fun _ hr ↦ (by cases hr)⟩

/-- A new picture arrives while the old one is fetched: the old data is announced
under the new token. -/
theorem old_avatar_new_token :
    ¬ Always (crashing (step (.unmatched "login")))
      (fun t ↦ ∀ s ∈ t, Matched (.unmatched "login") s)
      (some (init (.unmatched "login")))
      [.status true, .contacts 1 [⟨2, none, some "http://h/old.jpg", some "old", .areFriends⟩],
        .requestAvatars [HandleRepo.numbering.ensure "2"], .send 0,
        .contacts 1 [⟨2, none, some "http://h/new.jpg", some "new", .areFriends⟩],
        .reply 0 200 (some [1, 2, 3])] := by
  intro h
  obtain ⟨user, horigin, -, htoken⟩ := (h.last _ rfl).token _ (List.mem_singleton_self _)
  obtain rfl := Option.some.inj horigin
  revert htoken
  decide

/-! ## Batches that leave the chains alone -/

variable (E) in
/-- A batch leaves the chains alone if what it reports of a contact whose request is
out has the token the request was made under, and what it reports of a contact that
waits has an icon. -/
def Undisturbed (s : Avatars) : AvatarsEvent → Prop
  | .contacts myUid users => ∀ user ∈ users, ∀ chain ∈ s.chains,
      (chain.queue.getLast? = some (recordRef E myUid user) →
        getAvatarToken E user = tokenOf E chain.request.origin) ∧
      (recordRef E myUid user ∈ chain.queue.dropLast → user.icon.isSome)
  | _ => True

variable (E) in
/-- The contact whose request is out has the token the request was made under, and the
contacts that wait have icons. -/
structure Calm (s : Avatars) (chain : AvatarRequestQueue) : Prop where
  token : tokenOf E (s.origin chain.queue) = tokenOf E chain.request.origin
  icon : ∀ ref ∈ chain.queue.dropLast, ((s.report ref).bind FbApiUser.icon).isSome

/-- After a batch the last report of a record is the one before it or one of the
batch. -/
theorem foldl_file_cases (myUid : FbId) (report : Ref → Option FbApiUser)
    (users : List FbApiUser) (ref : Ref) :
    users.foldl (file E myUid) report ref = report ref ∨
      ∃ user ∈ users, ref = recordRef E myUid user ∧
        users.foldl (file E myUid) report ref = some user := by
  induction users generalizing report with
  | nil => exact .inl rfl
  | cons user users ih =>
      rcases ih (file E myUid report user) with h | ⟨user', hu, href, h⟩
      · rw [List.foldl_cons, h]
        by_cases hr : ref = recordRef E myUid user
        · exact .inr ⟨user, List.mem_cons_self, hr, by rw [hr, file, Function.update_self]⟩
        · exact .inl (Function.update_of_ne hr ..)
      · exact .inr ⟨user', List.mem_cons_of_mem _ hu, href, h⟩

/-- A calm chain takes every reply fresh. -/
theorem fresh_of_calm {s : Avatars} (h : ∀ chain ∈ s.chains, Calm E s chain)
    (e : AvatarsEvent) : Fresh E s e := by
  cases e with
  | reply i code data =>
      intro chain hi _ _
      have hc := h chain (List.mem_of_getElem? hi)
      refine ⟨fun _ _ ↦ hc.token, fun hne ↦ ?_⟩
      rw [origin_of_getLast? (List.getLast?_eq_some_getLast hne)]
      exact hc.icon _ (List.getLast_mem hne)
  | contacts | requestAvatars | send | status => trivial

/-- An undisturbing batch keeps a chain calm. -/
theorem Calm.contacts {s : Avatars} (h : Inv E s) {chain : AvatarRequestQueue}
    (hchain : chain ∈ s.chains) (hc : Calm E s chain) {myUid : FbId} {users : List FbApiUser}
    (he : Undisturbed E s (.contacts myUid users)) :
    Calm E { s with
      list := (contactsChanged E myUid s.list users).1
      report := users.foldl (file E myUid) s.report } chain := by
  constructor
  · have hlast := List.getLast?_eq_some_getLast (h.chains chain hchain).nonempty
    have htoken := hc.token
    rw [origin_of_getLast? hlast] at htoken ⊢
    show tokenOf E (users.foldl (file E myUid) s.report _) = _
    rcases foldl_file_cases (E := E) myUid s.report users _ with heq | ⟨user, hu, hr, heq⟩
    · rw [heq, htoken]
    · rw [heq]
      exact (he user hu chain hchain).1 (hr ▸ hlast)
  · intro ref href
    show ((users.foldl (file E myUid) s.report ref).bind FbApiUser.icon).isSome
    rcases foldl_file_cases (E := E) myUid s.report users ref with heq | ⟨user, hu, hr, heq⟩
    · rw [heq]
      exact hc.icon ref href
    · rw [heq]
      exact (he user hu chain hchain).2 (hr ▸ href)

theorem Calm.step {s s' : Avatars} (h : Inv E s) (hc : ∀ chain ∈ s.chains, Calm E s chain)
    {e : AvatarsEvent} (he : Undisturbed E s e) (hs : step E s e = some s') :
    ∀ chain ∈ s'.chains, Calm E s' chain := by
  intro chain' hchain
  obtain ⟨myUid, users, rfl, rfl⟩ | hleaves := step_cases h hs
  · exact (hc chain' hchain).contacts h hchain he
  have horigin (queue : List Ref) : s'.origin queue = s.origin queue := by
    rw [Avatars.origin, Avatars.origin, hleaves.report]
  cases hleaves.chains chain' hchain with
  | old chain hmem hqueue hrequest =>
      have hcalm := hc chain hmem
      refine ⟨by rw [horigin, hqueue, hrequest]; exact hcalm.token, fun ref href ↦ ?_⟩
      rw [hqueue] at href
      rw [hleaves.report]
      exact hcalm.icon ref href
  | new contacts hqueue hrequested =>
      refine ⟨by rw [horigin, hrequested.origin], fun ref href ↦ ?_⟩
      obtain ⟨handle, -, ⟨c, hcu, hicon⟩, rfl⟩ :=
        (mem_avatarQueue _ _ hqueue ref).mp (List.mem_of_mem_dropLast href)
      rwa [hleaves.report, ← (h.recorded _ c hcu).1]
  | next chain hmem hqueue hrequested =>
      refine ⟨by rw [horigin, hrequested.origin], fun ref href ↦ ?_⟩
      rw [hqueue] at href
      rw [hleaves.report]
      exact (hc chain hmem).icon ref (List.mem_of_mem_dropLast href)

/-- **Undisturbed chains.**  If no batch of a run disturbs the chains, everything is
matched in every state of the run. -/
theorem matched_of_undisturbed {es : List AvatarsEvent}
    (hes : Steps (crashing (step E)) (fun t e ↦ ∀ s ∈ t, Undisturbed E s e)
      (some (init E)) es) :
    Always (crashing (step E)) (fun t ↦ ∀ s ∈ t, Matched E s) (some (init E)) es := by
  refine (Steps.always (P := fun t : Option Avatars ↦ ∀ s ∈ t, Matched E s ∧ Inv E s ∧
    ∀ chain ∈ s.chains, Calm E s chain) ?_ ?_ hes).mono fun t ht s hs ↦ (ht s hs).1
  · intro t e ht he
    apply forall_mem_crashing
    intro s hs s' hs'
    obtain ⟨hm, hinv, hcalm⟩ := ht s hs
    exact ⟨(matched_step_iff hinv hm e).mpr (fresh_of_calm hcalm e) s' hs', hinv.step hs',
      Calm.step hinv hcalm (he s hs) hs'⟩
  · rintro s ⟨⟩
    exact ⟨⟨fun _ hr ↦ (by cases hr), fun _ hr ↦ (by cases hr)⟩, inv_init,
      fun _ hc ↦ (by cases hc)⟩

end Avatars

end TelepathyFacebook
