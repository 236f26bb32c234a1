import TelepathyFacebook.ContactList
import TelepathyFacebook.Lib.Runs

/-!
# Queries of the contact table

The entry points that look records up by handle: the alias and avatar-token
attributes (`tp/connection.c`, `tp/avatars.c`), the presence statuses
(`tp/presence.c`) and avatar requests (`tp/avatars.c`).

Handles become valid without any contact being reported, since clients ensure
identifiers as they like, and none of these entry points checks that a valid
handle has a record.  `calls_safe_iff` says exactly which runs are free of NULL
dereferences.
-/

namespace TelepathyFacebook

open Runs

/-- The contact attributes that the connection fills in. -/
inductive ContactAttribute where
  | alias | avatarToken
deriving DecidableEq, Repr

/-- An `attributes_hash`: the values of attributes of handles. -/
abbrev Attributes := AList fun _ : TpHandle × ContactAttribute ↦ String

/-- The alias of a record: its name, else the text of its uid. -/
def FbContact.alias (c : FbContact) : String := c.name.getD (fbIdToStr c.uid)

namespace ContactList

variable (E : ContactEnv)

/-! ## Attributes and statuses -/

/-- One round of `fb_connection_aliasing_fill_contact_attributes`. -/
def fillAlias (list : ContactList) (attributes : Attributes) (handle : TpHandle) :
    Option Attributes :=
  (getUser E list handle).map fun c ↦ attributes.insert (handle, .alias) c.alias

/-- `fb_connection_aliasing_fill_contact_attributes`. -/
def aliasingFillContactAttributes (list : ContactList) (contacts : List TpHandle)
    (attributes : Attributes) : Option Attributes :=
  contacts.foldlM (fillAlias E list) attributes

/-- One round of `fb_connection_avatars_fill_contact_attributes`. -/
def fillAvatarToken (list : ContactList) (attributes : Attributes) (handle : TpHandle) :
    Option Attributes :=
  (getUser E list handle).map fun c ↦
    match c.avatarToken with
    | none => attributes
    | some token => attributes.insert (handle, .avatarToken) token

/-- `fb_connection_avatars_fill_contact_attributes`. -/
def avatarsFillContactAttributes (list : ContactList) (contacts : List TpHandle)
    (attributes : Attributes) : Option Attributes :=
  contacts.foldlM (fillAvatarToken E list) attributes

/-- The status of one handle in `_get_contact_statuses`. -/
def contactStatus (list : ContactList) (handle : TpHandle) : Option PresenceStatus :=
  if handle = E.selfHandle then some .available
  else (getUser E list handle).map fun c ↦
    if c.fs = .areFriends then .ofActive c.active else .unknown

/-- One round of `_get_contact_statuses`; an invalid handle fails the assertion. -/
def insertStatus (list : ContactList) (table : StatusTable) (handle : TpHandle) :
    Option StatusTable :=
  if handle ∈ list.handles then (contactStatus E list handle).map fun s ↦ table.insert handle s
  else none

/-- `_get_contact_statuses`. -/
def getContactStatuses (list : ContactList) (contacts : List TpHandle) : Option StatusTable :=
  contacts.foldlM (insertStatus E list) ∅

/-! ## Avatar requests -/

/-- The record of a handle has an icon. -/
def HasIcon (list : ContactList) (handle : TpHandle) : Prop :=
  ∃ c, getUser E list handle = some c ∧ c.icon.isSome

/-- The errors `fb_connection_avatars_request_avatars` returns. -/
inductive AvatarsError where
  | notConnected | invalidHandle
deriving DecidableEq, Repr

/-- One round of the loop that fills the queue.  The head of the queue is the head
of the list. -/
def pushContact (list : ContactList) (queue : List Ref) (handle : TpHandle) :
    Option (List Ref) :=
  (getUser E list handle).map fun c ↦
    if c.icon.isSome then userRef E handle :: queue else queue

/-- The queue of the contacts that have an icon. -/
def avatarQueue (list : ContactList) (contacts : List TpHandle) : Option (List Ref) :=
  contacts.foldlM (pushContact E list) []

/-- The URL of the request for the contact at the tail of the queue. -/
def tailIcon (list : ContactList) (queue : List Ref) : Option (Option String) :=
  (queue.getLast?.bind list.deref).map FbContact.icon

/-- `fb_connection_avatars_request_avatars`: the queue and the URL of the first
request, if there is one. -/
def requestAvatars (connected : Bool) (list : ContactList) (contacts : List TpHandle) :
    Option (Except AvatarsError (Option (List Ref × Option String))) :=
  if ¬ connected then some (.error .notConnected)
  else if ¬ ∀ handle ∈ contacts, handle ∈ list.handles then some (.error .invalidHandle)
  else if contacts = [] then some (.ok none)
  else
    (avatarQueue E list contacts).bind fun queue ↦
      (tailIcon list queue).map fun url ↦ .ok (some (queue, url))

section

variable {E} (list : ContactList) (contacts : List TpHandle)

theorem isSome_aliasingFillContactAttributes (attributes : Attributes) :
    (aliasingFillContactAttributes E list contacts attributes).isSome ↔
      ∀ handle ∈ contacts, (getUser E list handle).isSome :=
  isSome_foldlM (fun _ _ ↦ by simp [fillAlias]) _ _

theorem isSome_avatarsFillContactAttributes (attributes : Attributes) :
    (avatarsFillContactAttributes E list contacts attributes).isSome ↔
      ∀ handle ∈ contacts, (getUser E list handle).isSome :=
  isSome_foldlM (fun _ _ ↦ by simp [fillAvatarToken]) _ _

/-- The own handle has a status of its own, and it has a record as well. -/
theorem isSome_contactStatus (handle : TpHandle) :
    (contactStatus E list handle).isSome ↔ (getUser E list handle).isSome := by
  rw [contactStatus]
  split
  · next h => simp [h]
  · simp

theorem isSome_getContactStatuses (hvalid : ∀ handle ∈ contacts, handle ∈ list.handles) :
    (getContactStatuses E list contacts).isSome ↔
      ∀ handle ∈ contacts, (getUser E list handle).isSome := by
  have hround (table : StatusTable) (handle : TpHandle) :
      (insertStatus E list table handle).isSome ↔
        handle ∈ list.handles ∧ (getUser E list handle).isSome := by
    rw [insertStatus]
    split
    · next h => simp [h, isSome_contactStatus]
    · next h => simp [h]
  rw [getContactStatuses, isSome_foldlM hround]
  exact forall₂_congr fun handle hh ↦ and_iff_right (hvalid handle hh)

theorem isSome_avatarQueue :
    (avatarQueue E list contacts).isSome ↔
      ∀ handle ∈ contacts, (getUser E list handle).isSome :=
  isSome_foldlM (fun _ _ ↦ by simp [pushContact]) _ _

/-- The queue holds the contacts with an icon.  It is filled from its head, so that its
tail is the first of them. -/
theorem reverse_avatarQueue {queue : List Ref} (h : avatarQueue E list contacts = some queue) :
    queue.reverse =
      (contacts.filter fun handle ↦ ((getUser E list handle).bind FbContact.icon).isSome).map
        (userRef E) := by
  have hfold (l : List TpHandle) (acc : List Ref)
      (hl : l.foldlM (pushContact E list) acc = some queue) :
      queue.reverse = acc.reverse ++
        (l.filter fun handle ↦ ((getUser E list handle).bind FbContact.icon).isSome).map
          (userRef E) := by
    induction l generalizing acc with
    | nil =>
        obtain rfl : acc = queue := by simpa using hl
        simp
    | cons handle l ih =>
        obtain ⟨acc', hacc, hl⟩ := Option.bind_eq_some_iff.mp hl
        obtain ⟨c, hc, rfl⟩ := Option.map_eq_some_iff.mp hacc
        rw [ih _ hl, List.filter_cons, hc, Option.bind_some]
        split
        · simp
        · rfl
  simpa using hfold contacts [] h

theorem mem_avatarQueue {queue : List Ref} (h : avatarQueue E list contacts = some queue)
    (ref : Ref) :
    ref ∈ queue ↔ ∃ handle ∈ contacts, HasIcon E list handle ∧ ref = userRef E handle := by
  have hicon (handle : TpHandle) :
      ((getUser E list handle).bind FbContact.icon).isSome ↔ HasIcon E list handle := by
    rw [HasIcon]
    cases getUser E list handle <;> simp
  rw [← List.mem_reverse, reverse_avatarQueue list contacts h, List.mem_map]
  simp only [List.mem_filter, hicon, and_assoc, eq_comm]

/-- The first request needs a contact at the tail of the queue, and nothing else. -/
theorem isSome_tailIcon {queue : List Ref} (h : ∀ ref ∈ queue, (list.deref ref).isSome) :
    (list.tailIcon queue).isSome ↔ queue ≠ [] := by
  rcases List.eq_nil_or_concat queue with rfl | ⟨init, ref, rfl⟩
  · simp [tailIcon]
  · simpa [tailIcon] using h ref (by simp)

/-- **When an avatar request goes through**: when it is refused or empty, and else
when every handle has a record and one of the records has an icon. -/
theorem isSome_requestAvatars (connected : Bool) :
    (requestAvatars E connected list contacts).isSome ↔
      (connected = true → (∀ handle ∈ contacts, handle ∈ list.handles) → contacts ≠ [] →
        (∀ handle ∈ contacts, (getUser E list handle).isSome) ∧
          ∃ handle ∈ contacts, HasIcon E list handle) := by
  rw [requestAvatars]
  split
  · next h => simp [h]
  split
  · next h => exact ⟨fun _ _ hvalid ↦ absurd hvalid h, fun _ ↦ rfl⟩
  split
  · next h => simp [h]
  next hconn hvalid hne =>
    rw [not_not] at hconn hvalid
    rw [imp_iff_right hconn, imp_iff_right hvalid, imp_iff_right hne,
      ← isSome_avatarQueue (E := E) list contacts]
    cases hq : avatarQueue E list contacts with
    | none => simp
    | some queue =>
        have hmem := mem_avatarQueue list contacts hq
        have hderef : ∀ ref ∈ queue, (list.deref ref).isSome := by
          intro ref href
          obtain ⟨handle, -, ⟨c, hc, -⟩, rfl⟩ := (hmem ref).mp href
          exact Option.isSome_iff_exists.mpr ⟨c, hc⟩
        rw [Option.bind_some, Option.isSome_map, isSome_tailIcon list hderef,
          and_iff_right (by rfl)]
        constructor
        · intro hqueue
          obtain ⟨ref, href⟩ := List.exists_mem_of_ne_nil queue hqueue
          obtain ⟨handle, hh, hicon, -⟩ := (hmem ref).mp href
          exact ⟨handle, hh, hicon⟩
        · rintro ⟨handle, hh, hicon⟩
          exact List.ne_nil_of_mem ((hmem _).mpr ⟨handle, hh, hicon, rfl⟩)

end

/-! ## Runs -/

/-- What happens to the contact list: a client ensures an identifier, the server
reports contacts or presences, or a client queries handles. -/
inductive ContactsCall where
  | ensure (id : String)
  | contacts (myUid : FbId) (users : List FbApiUser)
  | presences (presences : List FbApiPresence)
  | aliases (contacts : List TpHandle)
  | avatarTokens (contacts : List TpHandle)
  | statuses (contacts : List TpHandle)
  | requestAvatars (connected : Bool) (contacts : List TpHandle)

/-- A query, which leaves the list alone.  telepathy-glib makes it for valid handles
only. -/
def query {α : Type} (list : ContactList) (contacts : List TpHandle) (answer : Option α) :
    Option ContactList :=
  if ∀ handle ∈ contacts, handle ∈ list.handles then answer.map fun _ ↦ list else some list

/-- One call; `none` is a NULL dereference. -/
def call (list : ContactList) : ContactsCall → Option ContactList
  | .ensure id => some (list.addHandle (E.repo.ensure id))
  | .contacts myUid users => some (contactsChanged E myUid list users).1
  | .presences presences => (presencesChanged E list presences).map Prod.fst
  | .aliases contacts =>
      list.query contacts (aliasingFillContactAttributes E list contacts ∅)
  | .avatarTokens contacts =>
      list.query contacts (avatarsFillContactAttributes E list contacts ∅)
  | .statuses contacts => list.query contacts (getContactStatuses E list contacts)
  | .requestAvatars connected contacts =>
      (ContactList.requestAvatars E connected list contacts).map fun _ ↦ list

/-- Every handle is the account's own or has a record in the table. -/
def AllKnown (list : ContactList) (contacts : List TpHandle) : Prop :=
  ∀ handle ∈ contacts, handle = E.selfHandle ∨ handle ∈ list.fbContacts

/-- The calls that are safe: queries of valid handles that are all known, presences
of users whose handles are, and avatar requests that name an icon as well. -/
def Safe (list : ContactList) : ContactsCall → Prop
  | .ensure _ | .contacts _ _ => True
  | .presences presences => AllKnown E list (presences.map fun pres ↦ E.ensureHandle pres.uid)
  | .aliases contacts | .avatarTokens contacts | .statuses contacts =>
      (∀ handle ∈ contacts, handle ∈ list.handles) → AllKnown E list contacts
  | .requestAvatars connected contacts =>
      connected = true → (∀ handle ∈ contacts, handle ∈ list.handles) → contacts ≠ [] →
        AllKnown E list contacts ∧ ∃ handle ∈ contacts, HasIcon E list handle

theorem allKnown_iff (list : ContactList) (contacts : List TpHandle) :
    AllKnown E list contacts ↔ ∀ handle ∈ contacts, (getUser E list handle).isSome :=
  forall₂_congr fun handle _ ↦ (isSome_getUser E list handle).symm

theorem isSome_query {α : Type} {list : ContactList} {contacts : List TpHandle}
    {answer : Option α}
    (h : (∀ handle ∈ contacts, handle ∈ list.handles) →
      (answer.isSome ↔ ∀ handle ∈ contacts, (getUser E list handle).isSome)) :
    (list.query contacts answer).isSome ↔
      ((∀ handle ∈ contacts, handle ∈ list.handles) → AllKnown E list contacts) := by
  rw [query]
  split
  · next hvalid => rw [Option.isSome_map, imp_iff_right hvalid, allKnown_iff, h hvalid]
  · next hvalid => exact ⟨fun _ hv ↦ absurd hv hvalid, fun _ ↦ rfl⟩

/-- A call goes through exactly when it is safe. -/
theorem isSome_call (list : ContactList) (e : ContactsCall) :
    (call E list e).isSome ↔ Safe E list e := by
  cases e with
  | ensure id => exact iff_of_true rfl trivial
  | contacts myUid users => exact iff_of_true rfl trivial
  | presences presences =>
      rw [call, Option.isSome_map, isSome_presencesChanged, Safe, allKnown_iff,
        List.forall_mem_map]
  | aliases contacts =>
      exact isSome_query E fun _ ↦ isSome_aliasingFillContactAttributes list contacts ∅
  | avatarTokens contacts =>
      exact isSome_query E fun _ ↦ isSome_avatarsFillContactAttributes list contacts ∅
  | statuses contacts =>
      exact isSome_query E fun hvalid ↦ isSome_getContactStatuses list contacts hvalid
  | requestAvatars connected contacts =>
      rw [call, Option.isSome_map, isSome_requestAvatars, Safe, allKnown_iff]

/-- **Which runs dereference no missing record**: exactly those whose calls are all
safe in the state they come in. -/
theorem calls_safe_iff (es : List ContactsCall) :
    (es.foldl (crashing (call E)) (some (init E))).isSome ↔
      Steps (crashing (call E)) (fun t e ↦ ∀ list ∈ t, Safe E list e) (some (init E)) es :=
  isSome_foldl_crashing (isSome_call E) _ es

/-- A client asks for the alias of an identifier that nobody reported. -/
theorem stranger_alias_crashes :
    [ContactsCall.ensure "stranger", .aliases [HandleRepo.numbering.ensure "stranger"]].foldl
      (crashing (call (.unmatched "login"))) (some (init (.unmatched "login"))) = none := by
  have hne : HandleRepo.numbering.ensure "stranger" ≠ HandleRepo.numbering.ensure "login" :=
    HandleRepo.numbering.ensure_injective.ne (by decide)
  simp [call, query, addHandle, init, aliasingFillContactAttributes, fillAlias, getUser, userRef,
    ContactEnv.selfHandle, ContactEnv.unmatched, hne, deref]

end ContactList

end TelepathyFacebook
