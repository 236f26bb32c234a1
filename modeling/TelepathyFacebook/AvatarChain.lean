import TelepathyFacebook.Avatars
import TelepathyFacebook.ContactUid

/-!
# One chain of avatar requests

`fb_connection_avatars_request_avatars`, `idle_send_req` and `avatar_cb` of
`tp/avatars.c` once more, for a single chain and with what the chain owns: the record
`struct avatar_request_queue`, its references and the requests that point to it.  The
requests and the record are apart, as they are in memory: a reply reaches `avatar_cb`
with the record that its request was created with, whatever became of that record.

* `Inv.step`: every reply is for the contact at the tail of the queue, and the chain goes
  on until the queue is empty or a reply finds the connection gone.
* `shows_of_start`: the connection of `Avatars` shows what the chain does.
* `fetches_iff`: the chain fetches the contacts in order, and ends once, in every run; and
  it attributes every avatar to its contact exactly when those contacts have the uid 0.
-/

namespace TelepathyFacebook

open Runs ContactList

namespace AvatarChain

/-- A request that `fb_http_request_new` made, for the contact that the queue showed. -/
structure Request where
  contact : Ref
  url : String
  /-- `idle_send_req` has run. -/
  sent : Bool
deriving DecidableEq, Repr

/-- An `AvatarRetrieved` signal. -/
structure Signal where
  handle : TpHandle
  avatarToken : Option String
  avatar : List UInt8
  mimeType : String
deriving DecidableEq, Repr

/-- A reply that `avatar_cb` has handled. -/
structure Reply where
  request : Request
  /-- What `g_queue_pop_tail` gave. -/
  contact : Option Ref
  /-- The connection was connected. -/
  connected : Bool
  signal : Option Signal
deriving DecidableEq, Repr

/-- How often the references of the record, and the record, have been released. -/
structure Releases where
  http : Nat
  queue : Nat
  conn : Nat
  arq : Nat
deriving DecidableEq, Repr

/-- The releases at the end of a chain. -/
def Releases.release (r : Releases) : Releases := ⟨r.http + 1, r.queue + 1, r.conn + 1, r.arq + 1⟩

end AvatarChain

open AvatarChain

/-- A connection with one chain of requests. -/
structure AvatarChain where
  list : ContactList
  /-- The status of the connection is CONNECTED. -/
  connected : Bool
  /-- The queue of the record, `none` once the record is freed. -/
  arq : Option (List Ref)
  /-- The requests that wait for their reply. -/
  outstanding : List Request
  /-- The contacts that a request was created for. -/
  created : List Ref
  replies : List Reply
  releases : Releases

namespace AvatarChain

/-- What happens to a chain. -/
inductive Event where
  /-- `fb_contact_list_fb_contacts_changed`. -/
  | contacts (myUid : FbId) (users : List FbApiUser)
  /-- `idle_send_req` for a request. -/
  | send (i : Nat)
  /-- `fb_http_request_cb` for a request, with the status and data of the reply. -/
  | reply (i : Nat) (code : Int) (data : Option (List UInt8))
  /-- The connection enters or leaves CONNECTED. -/
  | status (connected : Bool)

variable (E : ContactEnv)

/-! ## The code -/

/-- A request for the contact at the tail of the queue.  A NULL contact is a crash, and
so is a NULL URL, which `fb_http_request_new` makes no request of. -/
def createRequest (s : AvatarChain) (queue : List Ref) : Option AvatarChain :=
  queue.getLast?.bind fun contact ↦
    (s.list.deref contact).bind fun c ↦
      c.icon.map fun url ↦
        { s with
          arq := some queue
          outstanding := s.outstanding ++ [⟨contact, url, false⟩]
          created := s.created ++ [contact] }

/-- The signal that `avatar_cb` emits, if it does. -/
def announce (s : AvatarChain) (contact : Option Ref) (code : Int)
    (data : Option (List UInt8)) : Option (Option Signal) :=
  if s.connected ∧ code = 200 then
    match data with
    | none => some none
    | some avatar =>
        (contact.bind s.list.deref).map fun c ↦
          some ⟨E.ensureHandle c.uid, c.avatarToken, avatar, "image/jpeg"⟩
  else some none

/-- `avatar_cb`; `none` is the use of the record after it is freed, or a NULL dereference. -/
def avatarCb (s : AvatarChain) (request : Request) (code : Int) (data : Option (List UInt8)) :
    Option AvatarChain :=
  s.arq.bind fun queue ↦
    let contact := queue.getLast?
    let queue := queue.dropLast
    (announce E s contact code data).bind fun signal ↦
      let s := { s with replies := s.replies ++ [⟨request, contact, s.connected, signal⟩] }
      if queue = [] ∨ ¬ s.connected then
        some { s with arq := none, releases := s.releases.release }
      else createRequest s queue

/-- `fb_connection_avatars_request_avatars` on a connected connection, where it creates a
first request. -/
def start (list : ContactList) (contacts : List TpHandle) : Option AvatarChain :=
  match requestAvatars E true list contacts with
  | some (.ok (some (queue, _))) =>
      createRequest ⟨list, true, some queue, [], [], [], ⟨0, 0, 0, 0⟩⟩ queue
  | _ => none

/-- One event. -/
def step (s : AvatarChain) : Event → Option AvatarChain
  | .contacts myUid users => some { s with list := (contactsChanged E myUid s.list users).1 }
  | .send i =>
      match s.outstanding[i]? with
      | none => some s
      | some request =>
          some { s with outstanding := s.outstanding.set i { request with sent := true } }
  | .reply i code data =>
      match s.outstanding[i]? with
      | none => some s
      | some request =>
          if request.sent then
            avatarCb E { s with outstanding := s.outstanding.eraseIdx i } request code data
          else some s
  | .status connected => some { s with connected := connected }

/-! ## What is asked of a run -/

/-- The icon of the record that a pointer points to. -/
def iconOf (list : ContactList) (ref : Ref) : Option String :=
  (list.deref ref).bind FbContact.icon

/-- The handle of the contact that a pointer of the queue stands for. -/
def refHandle : Ref → TpHandle
  | .me => E.selfHandle
  | .entry handle => handle

/-- The handles of the list whose contact has an icon, in order. -/
def iconHandles (list : ContactList) (contacts : List TpHandle) : List TpHandle :=
  contacts.filter fun handle ↦ (iconOf list (userRef E handle)).isSome

/-- The signal is that of the contact whose icon was requested. -/
structure Reply.Attributed (reply : Reply) : Prop where
  contact : reply.contact = some reply.request.contact
  handle : ∀ signal ∈ reply.signal, signal.handle = refHandle E reply.request.contact

/-- The chain over the handles so far. -/
structure Fetches (handles : List TpHandle) (s : AvatarChain) : Prop where
  /-- One request is outstanding at a time. -/
  one : s.outstanding.length ≤ 1
  /-- The contacts are fetched in the order of the list, each occurrence at most once. -/
  order : s.created.map (refHandle E) <+: handles
  /-- A request has had its one reply, or waits for it. -/
  answered : s.created =
    s.replies.map (fun reply ↦ reply.request.contact) ++ s.outstanding.map Request.contact
  /-- When every request has its reply and the connection stayed connected, all contacts
  are fetched, whatever the replies were. -/
  all : s.outstanding = [] → (∀ reply ∈ s.replies, reply.connected) →
    s.created.map (refHandle E) = handles
  attributed : ∀ reply ∈ s.replies, reply.Attributed E
  /-- A reply that is handled while not connected is the last one, and no request is
  created after it. -/
  stops : (∀ reply ∈ s.replies.dropLast, reply.connected) ∧
    ((∃ reply ∈ s.replies, ¬ reply.connected) → s.outstanding = [])
  /-- What the record owns is released once, when the chain ends. -/
  released : s.releases = if s.outstanding = [] then ⟨1, 1, 1, 1⟩ else ⟨0, 0, 0, 0⟩
  /-- The record lives as long as a request points to it. -/
  freed : s.arq = none ↔ s.outstanding = []

/-- A batch leaves the contacts of the queue an icon. -/
def KeepsIcons (s : AvatarChain) : Event → Prop
  | .contacts myUid users => ∀ queue ∈ s.arq, ∀ ref ∈ queue,
      (iconOf (contactsChanged E myUid s.list users).1 ref).isSome
  | _ => True

/-- A reply that brings an avatar is for a contact with the handle of the uid 0. -/
def Attributable (s : AvatarChain) : Event → Prop
  | .reply i code data => ∀ request, s.outstanding[i]? = some request → request.sent →
      s.connected → code = 200 → data.isSome → refHandle E request.contact = E.ensureHandle 0
  | _ => True

/-! ## Invariants -/

/-- The contacts whose request was answered. -/
def answered (s : AvatarChain) : List Ref := s.replies.map fun reply ↦ reply.request.contact

/-- The chain goes on: the contact at the tail of its queue is the requested one. -/
structure Running (handles : List TpHandle) (s : AvatarChain) (queue : List Ref)
    (request : Request) : Prop where
  arq : s.arq = some queue
  outstanding : s.outstanding = [request]
  tail : queue.getLast? = some request.contact
  rest : (s.answered ++ queue.reverse).map (refHandle E) = handles
  icon : ∀ ref ∈ queue, (iconOf s.list ref).isSome
  connected : ∀ reply ∈ s.replies, reply.connected
  created : s.created = s.answered ++ [request.contact]
  releases : s.releases = ⟨0, 0, 0, 0⟩

/-- The chain has ended. -/
structure Ended (handles : List TpHandle) (s : AvatarChain) : Prop where
  arq : s.arq = none
  outstanding : s.outstanding = []
  created : s.created = s.answered
  order : s.answered.map (refHandle E) <+: handles
  connected : ∀ reply ∈ s.replies.dropLast, reply.connected
  all : (∀ reply ∈ s.replies, reply.connected) → s.answered.map (refHandle E) = handles
  releases : s.releases = ⟨1, 1, 1, 1⟩

/-- What holds in every state of every run. -/
structure Inv (handles : List TpHandle) (s : AvatarChain) : Prop where
  uidUnset : UidUnset s.list
  popped : ∀ reply ∈ s.replies, reply.contact = some reply.request.contact
  phase : (∃ queue request, Running E handles s queue request) ∨ Ended E handles s

variable {E}

@[simp] theorem refHandle_userRef (handle : TpHandle) :
    refHandle E (userRef E handle) = handle := by
  rw [userRef]
  split
  · next h => exact h.symm
  · rfl

theorem deref_of_iconOf {list : ContactList} {ref : Ref} (h : (iconOf list ref).isSome) :
    ∃ c url, list.deref ref = some c ∧ c.icon = some url := by
  obtain ⟨url, hurl⟩ := Option.isSome_iff_exists.mp h
  obtain ⟨c, hc, hicon⟩ := Option.bind_eq_some_iff.mp hurl
  exact ⟨c, url, hc, hicon⟩

/-! ## Spec lemmas -/

/-- `avatar_cb` signals an avatar that came with status 200, under the handle of the uid
0. -/
theorem announce_spec {s : AvatarChain} (h : UidUnset s.list) {contact : Ref}
    (hc : (iconOf s.list contact).isSome) (code : Int) (data : Option (List UInt8)) :
    ∃ signal, announce E s (some contact) code data = some signal ∧
      (∀ x ∈ signal, x.handle = E.ensureHandle 0) ∧
      (signal.isSome ↔ s.connected ∧ code = 200 ∧ data.isSome) := by
  unfold announce
  split
  · next hok =>
      cases data with
      | none => exact ⟨none, rfl, by simp, by simp⟩
      | some avatar =>
          obtain ⟨c, -, hderef, -⟩ := deref_of_iconOf hc
          refine ⟨some ⟨E.ensureHandle c.uid, c.avatarToken, avatar, "image/jpeg"⟩,
            by simp [hderef], ?_, by simp [hok]⟩
          rintro _ ⟨⟩
          exact congrArg E.ensureHandle (h.deref hderef)
  · next hok => exact ⟨none, rfl, by simp, by simpa using fun h1 h2 ↦ absurd ⟨h1, h2⟩ hok⟩

/-- A request can be created where the contact at the tail has an icon. -/
theorem createRequest_spec {s : AvatarChain} {queue : List Ref} {contact : Ref}
    (h : queue.getLast? = some contact) (hicon : (iconOf s.list contact).isSome) :
    ∃ url, createRequest s queue = some { s with
      arq := some queue
      outstanding := s.outstanding ++ [⟨contact, url, false⟩]
      created := s.created ++ [contact] } := by
  obtain ⟨c, url, hc, hurl⟩ := deref_of_iconOf hicon
  exact ⟨url, by rw [createRequest, h, Option.bind_some, hc, Option.bind_some, hurl]; rfl⟩

/-- **A first request** starts a chain over the contacts that have an icon. -/
theorem inv_start {list : ContactList} (h : UidUnset list) {contacts : List TpHandle}
    {s : AvatarChain} (hs : start E list contacts = some s) :
    Inv E (iconHandles E list contacts) s ∧ s.replies = [] := by
  unfold start at hs
  split at hs
  · next queue url hqueue =>
      obtain ⟨hqueue, htail⟩ := Avatars.requestAvatars_eq_ok hqueue
      have hreverse : queue.reverse = (iconHandles E list contacts).map (userRef E) :=
        reverse_avatarQueue list contacts hqueue
      have hicons : ∀ ref ∈ queue, (iconOf list ref).isSome := by
        intro ref href
        rw [← List.mem_reverse, hreverse] at href
        obtain ⟨handle, hhandle, rfl⟩ := List.mem_map.mp href
        exact (List.mem_filter.mp hhandle).2
      obtain ⟨contact, hcontact, hs⟩ := Option.bind_eq_some_iff.mp hs
      obtain ⟨c, hc, hs⟩ := Option.bind_eq_some_iff.mp hs
      obtain ⟨url, hurl, rfl⟩ := Option.map_eq_some_iff.mp hs
      refine ⟨⟨h, by simp, .inl ⟨queue, ⟨contact, url, false⟩, rfl, rfl, hcontact, ?_, hicons,
        by simp, rfl, rfl⟩⟩, rfl⟩
      show ([] ++ queue.reverse).map (refHandle E) = _
      rw [List.nil_append, hreverse, List.map_map]
      exact (List.map_congr_left fun handle _ ↦ refHandle_userRef handle).trans
        (List.map_id _)
  · cases hs

/-- `avatar_cb`, where the contact at the tail of the queue is known. -/
theorem avatarCb_eq {s : AvatarChain} {init : List Ref} {contact : Ref}
    (hs : s.arq = some (init ++ [contact])) {request : Request} {code : Int}
    {data : Option (List UInt8)} {signal : Option Signal}
    (hsignal : announce E s (some contact) code data = some signal) :
    avatarCb E s request code data =
      if init = [] ∨ ¬ s.connected then
        some { s with
          arq := none
          replies := s.replies ++ [⟨request, some contact, s.connected, signal⟩]
          releases := s.releases.release }
      else
        createRequest { s with
          replies := s.replies ++ [⟨request, some contact, s.connected, signal⟩] } init := by
  obtain ⟨list, connected, arq, outstanding, created, replies, releases⟩ := s
  obtain rfl : arq = some (init ++ [contact]) := hs
  simp [avatarCb, hsignal]

/-- The contacts of a running chain: those answered, the requested one, and the rest. -/
theorem Running.handles_eq {handles : List TpHandle} {s : AvatarChain} {init : List Ref}
    {request : Request} (hr : Running E handles s (init ++ [request.contact]) request) :
    (s.answered ++ [request.contact] ++ init.reverse).map (refHandle E) = handles := by
  rw [← hr.rest, List.reverse_append, List.reverse_singleton, List.append_assoc]

/-- The last reply, or one that finds the connection gone, ends the chain. -/
theorem Running.ends {handles : List TpHandle} {s : AvatarChain} {init : List Ref}
    {request : Request} (hr : Running E handles s (init ++ [request.contact]) request)
    (hend : init = [] ∨ ¬ s.connected) (signal : Option Signal) :
    Ended E handles { s with
      arq := none
      outstanding := []
      replies := s.replies ++ [⟨request, some request.contact, s.connected, signal⟩]
      releases := s.releases.release } := by
  refine ⟨rfl, rfl, ?_, ?_, ?_, ?_, ?_⟩
  · simp [hr.created, answered]
  · refine ⟨init.reverse.map (refHandle E), ?_⟩
    rw [← hr.handles_eq, List.map_append]
    simp [answered]
  · simpa using hr.connected
  · intro hconn
    have hlast := hconn ⟨request, some request.contact, s.connected, signal⟩ (by simp)
    have hinit : init = [] := hend.resolve_right (not_not.mpr hlast)
    rw [← hr.handles_eq, hinit]
    simp [answered]
  · rw [hr.releases]
    rfl

/-- After any other reply the next contact is requested. -/
theorem Running.goesOn {handles : List TpHandle} {s : AvatarChain} {init : List Ref}
    {contact : Ref} {request : Request}
    (hr : Running E handles s (init ++ [contact] ++ [request.contact]) request)
    (hconn : s.connected) (signal : Option Signal) (url : String) :
    Running E handles { s with
      arq := some (init ++ [contact])
      outstanding := [⟨contact, url, false⟩]
      created := s.created ++ [contact]
      replies := s.replies ++ [⟨request, some request.contact, s.connected, signal⟩] }
      (init ++ [contact]) ⟨contact, url, false⟩ := by
  refine ⟨rfl, rfl, List.getLast?_concat, ?_, ?_, ?_, ?_, hr.releases⟩
  · rw [← hr.handles_eq]
    simp [answered]
  · exact fun ref href ↦ hr.icon ref (List.mem_append_left _ href)
  · intro reply hreply
    rcases List.mem_append.mp hreply with hold | hnew
    · exact hr.connected reply hold
    · obtain rfl := List.mem_singleton.mp hnew
      exact hconn
  · simp [hr.created, answered]

/-- **A reply** is for the contact at the tail of the queue, and the chain ends with it or
requests the next contact. -/
theorem Running.avatarCb {handles : List TpHandle} {s : AvatarChain} {queue : List Ref}
    {request : Request} (hr : Running E handles s queue request) (hu : UidUnset s.list)
    (code : Int) (data : Option (List UInt8)) :
    ∃ s' signal, avatarCb E { s with outstanding := [] } request code data = some s' ∧
      s'.list = s.list ∧
      s'.replies = s.replies ++ [⟨request, some request.contact, s.connected, signal⟩] ∧
      (∀ x ∈ signal, x.handle = E.ensureHandle 0) ∧
      (signal.isSome ↔ s.connected ∧ code = 200 ∧ data.isSome) ∧
      ((∃ queue request, Running E handles s' queue request) ∨ Ended E handles s') := by
  obtain ⟨init, rfl⟩ := List.getLast?_eq_some_iff.mp hr.tail
  obtain ⟨signal, hsignal, hhandle, hsome⟩ :=
    announce_spec (E := E) (s := { s with outstanding := [] }) hu
      (hr.icon request.contact (by simp)) code data
  rw [avatarCb_eq (s := { s with outstanding := [] }) hr.arq hsignal]
  split
  · next hend =>
      exact ⟨_, signal, rfl, rfl, rfl, hhandle, hsome, .inr (hr.ends hend signal)⟩
  · next hgo =>
      obtain ⟨hne, hconn⟩ := not_or.mp hgo
      rw [not_not] at hconn
      obtain ⟨init, contact, rfl⟩ := (List.eq_nil_or_concat' init).resolve_left hne
      obtain ⟨url, hcreate⟩ := createRequest_spec (s := { s with
          outstanding := []
          replies := s.replies ++ [⟨request, some request.contact, s.connected, signal⟩] })
        List.getLast?_concat (hr.icon contact (by simp))
      rw [hcreate]
      exact ⟨_, signal, rfl, rfl, rfl, hhandle, hsome,
        .inl ⟨_, _, hr.goesOn hconn signal url⟩⟩

/-- A reply is attributed to its contact when it brings no avatar, or the contact has the
handle of the uid 0. -/
theorem attributed_iff {request : Request} {connected : Bool} {signal : Option Signal}
    (hhandle : ∀ x ∈ signal, x.handle = E.ensureHandle 0) :
    Reply.Attributed E ⟨request, some request.contact, connected, signal⟩ ↔
      (signal.isSome → refHandle E request.contact = E.ensureHandle 0) := by
  constructor
  · intro h hsome
    obtain ⟨x, hx⟩ := Option.isSome_iff_exists.mp hsome
    rw [← hhandle x hx]
    exact (h.handle x hx).symm
  · intro h
    refine ⟨rfl, fun x hx ↦ ?_⟩
    rw [hhandle x hx, h (Option.isSome_of_mem hx)]

/-- The requests and replies of a chain after an event that is no reply. -/
theorem Inv.of_list {handles : List TpHandle} {s : AvatarChain} (h : Inv E handles s)
    {list : ContactList} (hlist : UidUnset list)
    (hicon : ∀ queue ∈ s.arq, ∀ ref ∈ queue, (iconOf list ref).isSome) :
    Inv E handles { s with list := list } := by
  refine ⟨hlist, h.popped, ?_⟩
  rcases h.phase with ⟨queue, request, hr⟩ | hended
  · exact .inl ⟨queue, request, hr.arq, hr.outstanding, hr.tail, hr.rest,
      hicon queue hr.arq, hr.connected, hr.created, hr.releases⟩
  · exact .inr ⟨hended.arq, hended.outstanding, hended.created, hended.order,
      hended.connected, hended.all, hended.releases⟩

theorem Inv.of_connected {handles : List TpHandle} {s : AvatarChain} (h : Inv E handles s)
    (connected : Bool) : Inv E handles { s with connected := connected } := by
  refine ⟨h.uidUnset, h.popped, ?_⟩
  rcases h.phase with ⟨queue, request, hr⟩ | hended
  · exact .inl ⟨queue, request, hr.arq, hr.outstanding, hr.tail, hr.rest, hr.icon,
      hr.connected, hr.created, hr.releases⟩
  · exact .inr ⟨hended.arq, hended.outstanding, hended.created, hended.order,
      hended.connected, hended.all, hended.releases⟩

theorem Inv.send {handles : List TpHandle} {s : AvatarChain} (h : Inv E handles s) {i : Nat}
    {request : Request} (hrequest : s.outstanding[i]? = some request) :
    Inv E handles
      { s with outstanding := s.outstanding.set i { request with sent := true } } := by
  refine ⟨h.uidUnset, h.popped, ?_⟩
  rcases h.phase with ⟨queue, request', hr⟩ | hended
  · rw [hr.outstanding] at hrequest
    obtain ⟨rfl, rfl⟩ : i = 0 ∧ request' = request := by
      simpa [List.getElem?_cons] using hrequest
    exact .inl ⟨queue, { request' with sent := true }, hr.arq, by simp [hr.outstanding],
      hr.tail, hr.rest, hr.icon, hr.connected, hr.created, hr.releases⟩
  · rw [hended.outstanding] at hrequest
    cases hrequest

theorem Inv.reply {handles : List TpHandle} {s : AvatarChain} (h : Inv E handles s) {i : Nat}
    {request : Request} (hrequest : s.outstanding[i]? = some request) (code : Int)
    (data : Option (List UInt8)) :
    ∃ s', avatarCb E { s with outstanding := s.outstanding.eraseIdx i } request code data =
        some s' ∧ Inv E handles s' ∧
      ((∀ reply ∈ s'.replies, reply.Attributed E) ↔ (∀ reply ∈ s.replies, reply.Attributed E) ∧
        (s.connected → code = 200 → data.isSome →
          refHandle E request.contact = E.ensureHandle 0)) := by
  obtain ⟨queue, request', hr⟩ | hended := h.phase
  · rw [hr.outstanding] at hrequest
    obtain ⟨rfl, rfl⟩ : i = 0 ∧ request' = request := by
      simpa [List.getElem?_cons] using hrequest
    rw [hr.outstanding, List.eraseIdx_cons_zero]
    obtain ⟨s', signal, hs', hlist, hreplies, hhandle, hsome, hphase⟩ :=
      hr.avatarCb h.uidUnset code data
    refine ⟨s', hs', ⟨hlist ▸ h.uidUnset, ?_, hphase⟩, ?_⟩
    · rw [hreplies, List.forall_mem_append]
      exact ⟨h.popped, by simp⟩
    · rw [hreplies, List.forall_mem_append, List.forall_mem_singleton, attributed_iff hhandle,
        hsome, and_imp, and_imp]
  · rw [hended.outstanding] at hrequest
    cases hrequest

/-- **What an event does.**  While contacts in the queue keep an icon, no event uses what
was freed; and it attributes a new avatar to its contact exactly when that contact has the
handle of the uid 0. -/
theorem Inv.step {handles : List TpHandle} {s : AvatarChain} (h : Inv E handles s)
    {e : Event} (he : KeepsIcons E s e) :
    ∃ s', step E s e = some s' ∧ Inv E handles s' ∧
      ((∀ reply ∈ s'.replies, reply.Attributed E) ↔
        (∀ reply ∈ s.replies, reply.Attributed E) ∧ Attributable E s e) := by
  cases e with
  | contacts myUid users =>
      exact ⟨_, rfl, h.of_list (h.uidUnset.runBatch myUid users) he, (and_iff_left trivial).symm⟩
  | status connected => exact ⟨_, rfl, h.of_connected connected, (and_iff_left trivial).symm⟩
  | send i =>
      rw [AvatarChain.step]
      split
      · exact ⟨s, rfl, h, (and_iff_left trivial).symm⟩
      · next request hrequest => exact ⟨_, rfl, h.send hrequest, (and_iff_left trivial).symm⟩
  | reply i code data =>
      rw [AvatarChain.step, Attributable]
      split
      · next hnone => exact ⟨s, rfl, h, by simp [hnone]⟩
      · next request hrequest =>
          split
          · next hsent =>
              obtain ⟨s', hs', hinv, hattributed⟩ := h.reply hrequest code data
              refine ⟨s', hs', hinv, ?_⟩
              rw [hattributed, hrequest]
              simp [hsent]
          · next hsent => exact ⟨s, rfl, h, by simp [hrequest, hsent]⟩

/-- In every state of a run the chain fetches the contacts in order, if it attributes the
avatars. -/
theorem Inv.fetches {handles : List TpHandle} {s : AvatarChain} (h : Inv E handles s)
    (hattributed : ∀ reply ∈ s.replies, reply.Attributed E) : Fetches E handles s := by
  obtain ⟨queue, request, hr⟩ | hended := h.phase
  · obtain ⟨init, rfl⟩ := List.getLast?_eq_some_iff.mp hr.tail
    refine ⟨by simp [hr.outstanding], ?_, by rw [hr.created, hr.outstanding]; rfl,
      by simp [hr.outstanding], hattributed, ⟨fun reply hreply ↦ ?_, ?_⟩,
      by simp [hr.outstanding, hr.releases], by simp [hr.arq, hr.outstanding]⟩
    · refine ⟨init.reverse.map (refHandle E), ?_⟩
      rw [← hr.rest, hr.created, ← List.map_append]
      simp
    · exact hr.connected reply (List.mem_of_mem_dropLast hreply)
    · rintro ⟨reply, hreply, hconn⟩
      exact absurd (hr.connected reply hreply) hconn
  · refine ⟨by simp [hended.outstanding], by rw [hended.created]; exact hended.order,
      by rw [hended.created, hended.outstanding]; exact (List.append_nil _).symm,
      fun _ hconn ↦ by rw [hended.created]; exact hended.all hconn, hattributed,
      ⟨hended.connected, fun _ ↦ hended.outstanding⟩,
      by simp [hended.outstanding, hended.releases], by simp [hended.arq, hended.outstanding]⟩

/-! ## The chain of a connection

In `Avatars` a connection has any number of chains, each with its request in it.  Here are
its steps for a chain that is alone. -/

/-- The event for a connection with one chain. -/
def Event.avatarsEvent : Event → AvatarsEvent
  | .contacts myUid users => .contacts myUid users
  | .send i => .send i
  | .reply i code data => .reply i code data
  | .status connected => .status connected

/-- What the chain shows of its queue and of the requests that wait. -/
def shown (s : AvatarChain) : List (List Ref × Option String × Bool) :=
  match s.arq with
  | none => []
  | some queue => s.outstanding.map fun request ↦ (queue, some request.url, request.sent)

/-- A connection whose only chain is this one, and the signals of both. -/
structure Shows (s : AvatarChain) (a : Avatars) : Prop where
  list : a.list = s.list
  connected : a.connected = s.connected
  chains : a.chains.map (fun chain ↦ (chain.queue, chain.request.url, chain.sent)) = s.shown
  retrieved : a.retrieved.map (fun r ↦ (⟨r.handle, r.token, r.avatar, r.mimeType⟩ : Signal)) =
    s.replies.filterMap Reply.signal

/-- Both emit the same signal. -/
theorem Shows.announce {s : AvatarChain} {a : Avatars} (h : Shows s a)
    (chain : AvatarRequestQueue) (code : Int) (data : Option (List UInt8)) :
    (Avatars.announce E a chain code data).map
        (List.map fun r ↦ (⟨r.handle, r.token, r.avatar, r.mimeType⟩ : Signal)) =
      (AvatarChain.announce E s chain.queue.getLast? code data).map Option.toList := by
  unfold Avatars.announce AvatarChain.announce
  rw [h.connected, h.list]
  split
  · cases data with
    | none => rfl
    | some avatar => cases chain.queue.getLast?.bind s.list.deref <;> rfl
  · rfl

/-- **A reply** does the same to the chain of the connection. -/
theorem Shows.avatarCb {handles : List TpHandle} {s s' : AvatarChain} {a : Avatars}
    (h : Shows s a) {queue : List Ref} {request : Request}
    (hr : Running E handles s queue request) (hu : UidUnset s.list) {chain : AvatarRequestQueue}
    (hchains : a.chains = [chain]) (hqueue : chain.queue = queue) {code : Int}
    {data : Option (List UInt8)}
    (hs' : avatarCb E { s with outstanding := [] } request code data = some s') :
    ∃ a', Avatars.avatarCb E a 0 chain code data = some a' ∧ Shows s' a' := by
  obtain ⟨init, rfl⟩ := List.getLast?_eq_some_iff.mp hr.tail
  obtain ⟨signal, hsignal, -, -⟩ :=
    announce_spec (E := E) (s := { s with outstanding := [] }) hu
      (hr.icon request.contact (by simp)) code data
  have hannounce := h.announce (E := E) chain code data
  rw [hqueue, List.getLast?_concat,
    show AvatarChain.announce E s (some request.contact) code data = some signal from hsignal]
    at hannounce
  obtain ⟨l, hl, hsignals⟩ := Option.map_eq_some_iff.mp hannounce
  rw [avatarCb_eq (s := { s with outstanding := [] }) hr.arq hsignal] at hs'
  rw [Avatars.avatarCb, hl, Option.bind_some, hqueue, List.dropLast_concat, Avatars.continueChain]
  have hretrieved : (a.retrieved ++ l).map
      (fun r ↦ (⟨r.handle, r.token, r.avatar, r.mimeType⟩ : Signal)) =
        (s.replies ++ [(⟨request, some request.contact, s.connected, signal⟩ : Reply)]).filterMap
          Reply.signal := by
    rw [List.map_append, h.retrieved, hsignals, List.filterMap_append]
    cases signal <;> rfl
  have hend : (init = [] ∨ ¬ a.connected) ↔ (init = [] ∨ ¬ s.connected) := by rw [h.connected]
  by_cases hstop : init = [] ∨ ¬ s.connected
  · rw [if_pos hstop] at hs'
    obtain rfl := Option.some.inj hs'
    rw [if_pos (hend.mpr hstop)]
    exact ⟨_, rfl, h.list, h.connected, by rw [hchains]; rfl, hretrieved⟩
  · rw [if_neg hstop] at hs'
    obtain ⟨contact, hcontact, hs'⟩ := Option.bind_eq_some_iff.mp hs'
    obtain ⟨c, hc, hs'⟩ := Option.bind_eq_some_iff.mp hs'
    obtain ⟨url, hurl, rfl⟩ := Option.map_eq_some_iff.mp hs'
    have htail : tailIcon a.list init = some (some url) := by
      rw [tailIcon, h.list, hcontact, Option.bind_some, show s.list.deref contact = some c from hc,
        Option.map_some, hurl]
    rw [if_neg (mt hend.mp hstop), htail]
    exact ⟨_, rfl, h.list, h.connected, by rw [hchains]; rfl, hretrieved⟩

theorem Shows.running {handles : List TpHandle} {s : AvatarChain} {a : Avatars} (h : Shows s a)
    {queue : List Ref} {request : Request} (hr : Running E handles s queue request) :
    ∃ chain, a.chains = [chain] ∧ chain.queue = queue ∧
      chain.request.url = some request.url ∧ chain.sent = request.sent := by
  have hchains := h.chains
  rw [shown, hr.arq, hr.outstanding] at hchains
  obtain ⟨chain, hchain, hshown⟩ := List.map_eq_singleton_iff.mp hchains
  obtain ⟨hqueue, hurl, hsent⟩ : chain.queue = queue ∧ chain.request.url = some request.url ∧
      chain.sent = request.sent := by simpa using hshown
  exact ⟨chain, hchain, hqueue, hurl, hsent⟩

theorem Shows.ended {handles : List TpHandle} {s : AvatarChain} {a : Avatars} (h : Shows s a)
    (hended : Ended E handles s) : a.chains = [] := by
  have hchains := h.chains
  rw [shown, hended.arq] at hchains
  exact List.map_eq_nil_iff.mp hchains

theorem Shows.send {handles : List TpHandle} {s s' : AvatarChain} {a : Avatars} (h : Shows s a)
    (hinv : Inv E handles s) {i : Nat} (hs' : AvatarChain.step E s (.send i) = some s') :
    ∃ a', Avatars.step E a (.send i) = some a' ∧ Shows s' a' := by
  rw [AvatarChain.step] at hs'
  rw [Avatars.step]
  obtain ⟨queue, request, hr⟩ | hended := hinv.phase
  · obtain ⟨chain, hchain, hqueue, hurl, -⟩ := h.running hr
    rw [hr.outstanding] at hs'
    rw [hchain]
    cases i with
    | zero =>
        obtain rfl := Option.some.inj hs'
        refine ⟨_, rfl, h.list, h.connected, ?_, h.retrieved⟩
        simp [shown, hr.arq, hqueue, hurl]
    | succ i =>
        obtain rfl := Option.some.inj hs'
        exact ⟨a, rfl, h⟩
  · rw [hended.outstanding] at hs'
    rw [h.ended hended]
    obtain rfl := Option.some.inj hs'
    exact ⟨a, rfl, h⟩

theorem Shows.reply {handles : List TpHandle} {s s' : AvatarChain} {a : Avatars} (h : Shows s a)
    (hinv : Inv E handles s) {i : Nat} {code : Int} {data : Option (List UInt8)}
    (hs' : AvatarChain.step E s (.reply i code data) = some s') :
    ∃ a', Avatars.step E a (.reply i code data) = some a' ∧ Shows s' a' := by
  rw [AvatarChain.step] at hs'
  rw [Avatars.step]
  obtain ⟨queue, request, hr⟩ | hended := hinv.phase
  · obtain ⟨chain, hchain, hqueue, -, hsent⟩ := h.running hr
    rw [hr.outstanding] at hs'
    rw [hchain]
    cases i with
    | zero =>
        simp only [List.getElem?_cons_zero, List.eraseIdx_cons_zero] at hs' ⊢
        rw [hsent]
        split at hs'
        · next hsend =>
            rw [if_pos hsend]
            exact h.avatarCb hr hinv.uidUnset hchain hqueue hs'
        · next hsend =>
            obtain rfl := Option.some.inj hs'
            rw [if_neg hsend]
            exact ⟨a, rfl, h⟩
    | succ i =>
        obtain rfl := Option.some.inj hs'
        exact ⟨a, rfl, h⟩
  · rw [hended.outstanding] at hs'
    rw [h.ended hended]
    obtain rfl := Option.some.inj hs'
    exact ⟨a, rfl, h⟩

/-- **The chain is one of the connection**: each of its steps is a step of the connection
that shows it. -/
theorem Shows.step {handles : List TpHandle} {s s' : AvatarChain} {a : Avatars} (h : Shows s a)
    (hinv : Inv E handles s) {e : Event} (hs' : step E s e = some s') :
    ∃ a', Avatars.step E a e.avatarsEvent = some a' ∧ Shows s' a' := by
  cases e with
  | contacts myUid users =>
      obtain rfl := Option.some.inj hs'
      refine ⟨_, rfl, ?_, h.connected, h.chains, h.retrieved⟩
      show (contactsChanged E myUid a.list users).1 = _
      rw [h.list]
  | status connected =>
      obtain rfl := Option.some.inj hs'
      exact ⟨_, rfl, h.list, rfl, h.chains, h.retrieved⟩
  | send i => exact h.send hinv hs'
  | reply i code data => exact h.reply hinv hs'

/-- A first request starts the chain on a connection that has no other. -/
theorem Shows.start {list : ContactList} {contacts : List TpHandle} {s : AvatarChain}
    (hs : start E list contacts = some s) {a : Avatars} (hlist : a.list = list)
    (hconnected : a.connected) (hchains : a.chains = []) (hretrieved : a.retrieved = []) :
    ∃ a', Avatars.step E a (.requestAvatars contacts) = some a' ∧ Shows s a' := by
  unfold AvatarChain.start at hs
  split at hs
  · next queue url hrequest =>
      obtain ⟨-, htail⟩ := Avatars.requestAvatars_eq_ok hrequest
      obtain ⟨contact, hcontact, hs⟩ := Option.bind_eq_some_iff.mp hs
      obtain ⟨c, hc, hs⟩ := Option.bind_eq_some_iff.mp hs
      obtain ⟨url', hurl, rfl⟩ := Option.map_eq_some_iff.mp hs
      obtain rfl : some url' = url := by
        rw [tailIcon, hcontact, Option.bind_some, show list.deref contact = some c from hc,
          Option.map_some, Option.some.injEq] at htail
        exact hurl.symm.trans htail
      rw [Avatars.step, hconnected, hlist, hrequest]
      exact ⟨_, rfl, rfl, rfl, by rw [hchains]; rfl, by rw [hretrieved]; rfl⟩
  · cases hs

/-- **A connection and its chain.**  On a connection without a chain, the first request and
all that happens to the chain afterwards show what the chain does. -/
theorem shows_of_start {list : ContactList} (h : UidUnset list) {contacts : List TpHandle}
    {s : AvatarChain} (hs : start E list contacts = some s) {a : Avatars} (hlist : a.list = list)
    (hconnected : a.connected) (hchains : a.chains = []) (hretrieved : a.retrieved = [])
    {es : List Event}
    (hes : Steps (crashing (step E)) (fun t e ↦ ∀ s ∈ t, KeepsIcons E s e) (some s) es) :
    ∃ s' a', es.foldl (crashing (step E)) (some s) = some s' ∧
      (.requestAvatars contacts :: es.map Event.avatarsEvent).foldl
        (crashing (Avatars.step E)) (some a) = some a' ∧ Shows s' a' := by
  obtain ⟨a', ha', hshows⟩ := Shows.start hs hlist hconnected hchains hretrieved
  rw [List.foldl_cons, crashing_some, ha']
  apply crashing_simulation (P := Inv E (iconHandles E list contacts)) ?_ (inv_start h hs).1
    hshows hes
  intro s a e hinv hshows he
  obtain ⟨s', hs', hinv', -⟩ := hinv.step he
  obtain ⟨a', ha', hshows'⟩ := hshows.step hinv hs'
  exact ⟨s', a', hs', hinv', ha', hshows'⟩

/-! ## Runs -/

/-- **When a chain fetches the avatars of its contacts.**  In a run over which the contacts
in the queue keep an icon, every request is answered before the next, the contacts are
fetched in the order of the list, the record is released once and not used again, and every
avatar is attributed to its contact, if and only if every avatar that arrives while
connected is that of a contact with the handle of the uid 0. -/
theorem fetches_iff (calls : List ContactsCall) {list : ContactList}
    (hlist : calls.foldl (crashing (call E)) (some (ContactList.init E)) = some list)
    {contacts : List TpHandle} {s : AvatarChain} (hs : start E list contacts = some s)
    {es : List Event}
    (hes : Steps (crashing (step E)) (fun t e ↦ ∀ s ∈ t, KeepsIcons E s e) (some s) es) :
    Always (crashing (step E)) (fun t ↦ ∃ s ∈ t, Fetches E (iconHandles E list contacts) s)
        (some s) es ↔
      Steps (crashing (step E)) (fun t e ↦ ∀ s ∈ t, Attributable E s e) (some s) es := by
  obtain ⟨hinv, hreplies⟩ := inv_start (uidUnset_of_calls hlist) hs
  have hattributed : ∀ reply ∈ s.replies, reply.Attributed E := by simp [hreplies]
  refine hes.always_iff (P := fun t ↦ ∃ s ∈ t, Inv E (iconHandles E list contacts) s) ?_ ?_
    ⟨s, rfl, hinv⟩ ⟨s, rfl, hinv.fetches hattributed⟩
  · rintro _ e ⟨s, rfl, h⟩ he
    obtain ⟨s', hs', h', -⟩ := h.step (he s rfl)
    exact ⟨s', hs', h'⟩
  · rintro _ e ⟨s, rfl, h⟩ he ⟨_, ⟨⟩, hfetches⟩
    obtain ⟨s', hs', h', hiff⟩ := h.step (he s rfl)
    rw [crashing_some, hs']
    constructor
    · rintro ⟨_, ⟨⟩, hfetches'⟩ _ ⟨⟩
      exact (hiff.mp hfetches'.attributed).2
    · intro hok
      exact ⟨s', rfl, h'.fetches (hiff.mpr ⟨hfetches.attributed, hok s rfl⟩)⟩

/-- A failed reply for the contact of uid 2, and then the avatar of the contact of uid 0. -/
theorem fetches_two :
    ∃ list s,
      [ContactsCall.contacts 1 [⟨2, none, some "http://h/2.jpg", none, .areFriends⟩,
          ⟨0, none, some "http://h/0.jpg", none, .areFriends⟩]].foldl
        (crashing (call (.unmatched "login"))) (some (ContactList.init (.unmatched "login"))) =
          some list ∧
      start (.unmatched "login") list
        [HandleRepo.numbering.ensure "2", HandleRepo.numbering.ensure "0"] = some s ∧
      Always (crashing (step (.unmatched "login")))
        (fun t ↦ ∃ s ∈ t, Fetches (.unmatched "login")
          (iconHandles (.unmatched "login") list
            [HandleRepo.numbering.ensure "2", HandleRepo.numbering.ensure "0"]) s)
        (some s) [.send 0, .reply 0 404 none, .send 0, .reply 0 200 (some [0])] := by
  refine ⟨_, _, rfl, rfl, (fetches_iff
    [.contacts 1 [⟨2, none, some "http://h/2.jpg", none, .areFriends⟩,
      ⟨0, none, some "http://h/0.jpg", none, .areFriends⟩]] rfl rfl ?_).mpr ?_⟩
  · exact ⟨fun _ _ ↦ trivial, fun _ _ ↦ trivial, fun _ _ ↦ trivial, fun _ _ ↦ trivial, trivial⟩
  · refine ⟨fun _ _ ↦ trivial, fun _ _ request _ _ _ hcode ↦ absurd hcode (by decide),
      fun _ _ ↦ trivial, ?_, trivial⟩
    rintro _ ⟨⟩ _ ⟨⟩ - - - -
    rfl

/-- The avatar of a contact of uid 2 is attributed to the handle of the uid 0. -/
theorem avatar_of_another :
    ∃ list s,
      [ContactsCall.contacts 1 [⟨2, none, some "http://h/2.jpg", none, .areFriends⟩]].foldl
        (crashing (call (.unmatched "login")))
        (some (ContactList.init (.unmatched "login"))) = some list ∧
      start (.unmatched "login") list [HandleRepo.numbering.ensure "2"] = some s ∧
      Steps (crashing (step (.unmatched "login")))
        (fun t e ↦ ∀ s ∈ t, KeepsIcons (.unmatched "login") s e)
        (some s) [.send 0, .reply 0 200 (some [0])] ∧
      ¬ Always (crashing (step (.unmatched "login")))
        (fun t ↦ ∃ s ∈ t, Fetches (.unmatched "login")
          (iconHandles (.unmatched "login") list
            [HandleRepo.numbering.ensure "2"]) s)
        (some s) [.send 0, .reply 0 200 (some [0])] := by
  refine ⟨_, _, rfl, rfl, ⟨fun _ _ ↦ trivial, fun _ _ ↦ trivial, trivial⟩, fun h ↦ ?_⟩
  obtain ⟨_, ⟨⟩, hfetches⟩ := h.last
  have hhandle := (hfetches.attributed _ (List.mem_singleton_self _)).handle _ rfl
  revert hhandle
  decide

end AvatarChain

end TelepathyFacebook
