import Mathlib.Data.Finset.Image
import Mathlib.Data.List.AList
import Mathlib.Logic.Equiv.List
import TelepathyFacebook.Lib.Runs
import TelepathyFacebook.Strto

/-!
# The contact table

The model of `tp/contact-list.c`, with the presence batches of `tp/presence.c`.
A contact is addressed by the handle under which the handle repository keeps the
decimal text of its uid; the account's own record is kept apart from the table.

`tp_handle_ensure` is an injective numbering of strings by non-zero handles
(`HandleRepo`), and a handle is valid once its string has been ensured.  The set of
valid handles is part of the state, because clients make it grow as well.

A NULL `FbContact` pointer that the code dereferences is a crash: functions that
can do so return an `Option`, `none` for the crash.  What a NULL icon leads to is
undefined: the token that it gives is a parameter, and that it may be a crash is left
to the results about tokens.
-/

namespace TelepathyFacebook

open Runs

/-- `FbId`. -/
abbrev FbId := Int64

/-- `FB_ID_TO_STR`. -/
def fbIdToStr (uid : FbId) : String := formatInt64 uid

theorem fbIdToStr_injective : Function.Injective fbIdToStr := formatInt64_injective

/-- `TpHandle`. -/
abbrev TpHandle := Nat

/-- `FbApiFriendshipStatus`. -/
inductive FbApiFriendshipStatus where
  | unknown | areFriends | incomingRequest | outgoingRequest | canRequest | canReconfirm
  | cannotRequest | notFriends | blocked | deactivated
deriving DecidableEq, Repr

/-- `FbApiUser`: what the server reports of a user. -/
structure FbApiUser where
  uid : FbId
  name : Option String
  icon : Option String
  csum : Option String
  fs : FbApiFriendshipStatus
deriving DecidableEq, Repr

/-- `FbApiPresence`. -/
structure FbApiPresence where
  uid : FbId
  active : Bool
deriving DecidableEq, Repr

/-- `struct _FbContact`.  The default values are those of `g_new0`. -/
structure FbContact where
  uid : FbId := 0
  name : Option String := none
  icon : Option String := none
  avatarToken : Option String := none
  fs : FbApiFriendshipStatus := .unknown
  active : Bool := false
deriving DecidableEq, Repr

/-- The contact handles of telepathy-glib. -/
structure HandleRepo where
  /-- `tp_handle_ensure`. -/
  ensure : String → TpHandle
  ensure_injective : Function.Injective ensure
  ensure_ne_zero : ∀ id, ensure id ≠ 0

/-- Handles numbered by the codes of their strings. -/
def HandleRepo.numbering : HandleRepo where
  ensure id := Encodable.encode (id.toList.map Char.toNat) + 1
  ensure_injective := by
    intro a b h
    have hcodes := Encodable.encode_injective (Nat.succ_injective h)
    exact String.toList_injective
      (List.map_injective_iff.mpr (fun _ _ hc ↦ Char.toNat_inj.mp hc) hcodes)
  ensure_ne_zero _ := Nat.succ_ne_zero _

/-- What the contact list of a connection relies on. -/
structure ContactEnv where
  /-- `priv->contact_repo`. -/
  repo : HandleRepo
  /-- The login id of the account. -/
  fbId : String
  /-- The first group of the icon URL pattern, where the pattern matches. -/
  fetch : String → Option String
  /-- What `get_avatar_token` answers for a NULL icon, if it returns.  `g_regex_match` refuses
  the NULL and leaves `match_info` unset, and that is released nevertheless. -/
  unset : FbApiUser → Option String

namespace ContactEnv

/-- Handles that are numbered, and icons that the pattern does not match. -/
def unmatched (fbId : String) : ContactEnv := ⟨.numbering, fbId, fun _ ↦ none, FbApiUser.csum⟩

variable (E : ContactEnv)

/-- `tp_base_connection_get_self_handle`. -/
def selfHandle : TpHandle := E.repo.ensure E.fbId

/-- The handle of a uid, as `fb_contact_list_ensure_handle` finds it. -/
def ensureHandle (uid : FbId) : TpHandle := E.repo.ensure (fbIdToStr uid)

theorem ensureHandle_injective : Function.Injective E.ensureHandle :=
  E.repo.ensure_injective.comp fbIdToStr_injective

theorem ensureHandle_eq_selfHandle (uid : FbId) :
    E.ensureHandle uid = E.selfHandle ↔ fbIdToStr uid = E.fbId :=
  E.repo.ensure_injective.eq_iff

end ContactEnv

/-- `get_avatar_token`. -/
def getAvatarToken (E : ContactEnv) (user : FbApiUser) : Option String :=
  match user.icon with
  | none => E.unset user
  | some icon => (E.fetch icon).or user.csum

/-- The record after a report: `uid` and `active` stay. -/
def FbContact.update (c : FbContact) (user : FbApiUser) (avatarToken : Option String) :
    FbContact :=
  { c with name := user.name, icon := user.icon, avatarToken := avatarToken, fs := user.fs }

/-- `FbContactListPrivate`, and the valid handles of its repository. -/
structure ContactList where
  handles : Finset TpHandle
  contacts : Finset TpHandle
  fbContacts : AList fun _ : TpHandle ↦ FbContact
  me : FbContact

namespace ContactList

/-- A pointer to a record. -/
inductive Ref where
  /-- `&priv->me`. -/
  | me
  /-- The record that `fb_contacts` keeps under a handle. -/
  | entry (handle : TpHandle)
deriving DecidableEq, Repr

/-- Follow a pointer; NULL is a pointer to no record. -/
def deref (list : ContactList) : Ref → Option FbContact
  | .me => some list.me
  | .entry handle => list.fbContacts.lookup handle

/-- Write a record through a pointer to it. -/
def store (list : ContactList) (c : FbContact) : Ref → ContactList
  | .me => { list with me := c }
  | .entry handle => { list with fbContacts := list.fbContacts.insert handle c }

/-- The handle repository after `tp_handle_ensure`. -/
def addHandle (list : ContactList) (handle : TpHandle) : ContactList :=
  { list with handles := insert handle list.handles }

variable (E : ContactEnv)

/-- A contact list that was just constructed. -/
def init : ContactList := ⟨{E.selfHandle}, ∅, ∅, {}⟩

/-- The pointer that `fb_contact_list_get_user` returns. -/
def userRef (handle : TpHandle) : Ref :=
  if handle = E.selfHandle then .me else .entry handle

/-- The record that `fb_contact_list_get_user` points to, `none` for NULL. -/
def getUser (list : ContactList) (handle : TpHandle) : Option FbContact :=
  list.deref (userRef E handle)

/-- `fb_contact_list_dup_contacts`. -/
def dupContacts (list : ContactList) : Finset TpHandle := list.contacts

@[simp] theorem getUser_selfHandle (list : ContactList) :
    getUser E list E.selfHandle = some list.me := by
  simp [getUser, userRef, deref]

theorem getUser_of_ne (list : ContactList) {handle : TpHandle} (h : handle ≠ E.selfHandle) :
    getUser E list handle = list.fbContacts.lookup handle := by
  simp [getUser, userRef, deref, h]

@[simp] theorem getUser_addHandle (list : ContactList) (handle handle' : TpHandle) :
    getUser E (list.addHandle handle') handle = getUser E list handle := by
  unfold getUser addHandle
  cases userRef E handle <;> rfl

/-- A handle has a record when it is the account's own or the table has it. -/
theorem isSome_getUser (list : ContactList) (handle : TpHandle) :
    (getUser E list handle).isSome ↔ handle = E.selfHandle ∨ handle ∈ list.fbContacts := by
  rcases eq_or_ne handle E.selfHandle with rfl | h
  · simp
  · rw [getUser_of_ne E list h, AList.lookup_isSome, or_iff_right h]

/-! ## Contact batches -/

/-- The variables of the loop of `fb_contact_list_fb_contacts_changed`. -/
structure Batch where
  list : ContactList
  /-- The local set `contacts`. -/
  contacts : Finset TpHandle
  /-- The `AvatarUpdated` signals, in order. -/
  updated : List (TpHandle × Option String)

/-- The `AvatarUpdated` signal for a record that gets a new token, if there is one. -/
def avatarUpdated (handle : TpHandle) (c : FbContact) (avatarToken : Option String) :
    List (TpHandle × Option String) :=
  if c.avatarToken.isSome ∧ avatarToken ≠ c.avatarToken then [(handle, avatarToken)] else []

/-- One round of the loop of `fb_contact_list_fb_contacts_changed`. -/
def contactChanged (myUid : FbId) (b : Batch) (user : FbApiUser) : Batch :=
  let avatarToken := getAvatarToken E user
  if user.uid = myUid then
    { b with
      list := { b.list with me := b.list.me.update user avatarToken }
      updated := b.updated ++ avatarUpdated E.selfHandle b.list.me avatarToken }
  else
    let handle := E.ensureHandle user.uid
    let list := b.list.addHandle handle
    -- A handle without a record gets a fresh one, and only then joins the published set.
    let c := (list.fbContacts.lookup handle).getD {}
    { list :=
        { list with
          contacts := if handle ∈ list.fbContacts then list.contacts
            else insert handle list.contacts
          fbContacts := list.fbContacts.insert handle (c.update user avatarToken) }
      contacts := insert handle b.contacts
      updated := b.updated ++ avatarUpdated handle c avatarToken }

/-- The record that a report of the user is written to. -/
def recordRef (myUid : FbId) (user : FbApiUser) : Ref :=
  if user.uid = myUid then .me else .entry (E.ensureHandle user.uid)

/-- The loop of `fb_contact_list_fb_contacts_changed`. -/
def runBatch (myUid : FbId) (list : ContactList) (users : List FbApiUser) : Batch :=
  users.foldl (contactChanged E myUid) ⟨list, ∅, []⟩

/-- The handles given to `tp_base_contact_list_contacts_changed`, if it is called. -/
def Batch.announced (b : Batch) : Option (Finset TpHandle) :=
  if b.contacts = ∅ then none else some b.contacts

/-- `fb_contact_list_fb_contacts_changed`: the list after it, and the handles that
are announced. -/
def contactsChanged (myUid : FbId) (list : ContactList) (users : List FbApiUser) :
    ContactList × Option (Finset TpHandle) :=
  let b := runBatch E myUid list users
  (b.list, b.announced)

section

variable {E} {myUid : FbId} (b : Batch) {user : FbApiUser}

theorem contactChanged_own (h : user.uid = myUid) :
    (contactChanged E myUid b user).list =
      { b.list with me := b.list.me.update user (getAvatarToken E user) } := by
  simp [contactChanged, h]

theorem contactChanged_me (h : user.uid ≠ myUid) :
    (contactChanged E myUid b user).list.me = b.list.me := by
  simp [contactChanged, h, addHandle]

/-- The record of a reported user is rewritten, or made. -/
theorem lookup_contactChanged_self (h : user.uid ≠ myUid) :
    (contactChanged E myUid b user).list.fbContacts.lookup (E.ensureHandle user.uid) =
      some (((b.list.fbContacts.lookup (E.ensureHandle user.uid)).getD {}).update user
        (getAvatarToken E user)) := by
  simp [contactChanged, h, addHandle]

/-- No other record changes. -/
theorem lookup_contactChanged_of_ne {handle : TpHandle}
    (h : user.uid = myUid ∨ handle ≠ E.ensureHandle user.uid) :
    (contactChanged E myUid b user).list.fbContacts.lookup handle =
      b.list.fbContacts.lookup handle := by
  by_cases hu : user.uid = myUid
  · rw [contactChanged_own b hu]
  · have hne : handle ≠ E.ensureHandle user.uid := h.resolve_left hu
    simp [contactChanged, hu, addHandle, AList.lookup_insert_ne hne]

/-- **What one report does to the records**: the one of its user is rewritten, or
made, and no other changes. -/
theorem deref_contactChanged (ref : Ref) :
    (contactChanged E myUid b user).list.deref ref =
      if ref = recordRef E myUid user then
        some (((b.list.deref ref).getD {}).update user (getAvatarToken E user))
      else b.list.deref ref := by
  by_cases hu : user.uid = myUid
  · rw [contactChanged_own b hu, recordRef, if_pos hu]
    cases ref <;> simp [deref]
  · rw [recordRef, if_neg hu]
    cases ref with
    | me => simp [deref, contactChanged_me b hu]
    | entry handle =>
        rcases eq_or_ne handle (E.ensureHandle user.uid) with rfl | hh
        · simpa [deref] using lookup_contactChanged_self b hu
        · simpa [deref, hh] using lookup_contactChanged_of_ne b (.inr hh)

theorem mem_fbContacts_contactChanged (handle : TpHandle) :
    handle ∈ (contactChanged E myUid b user).list.fbContacts ↔
      handle ∈ b.list.fbContacts ∨ user.uid ≠ myUid ∧ handle = E.ensureHandle user.uid := by
  by_cases hu : user.uid = myUid
  · simp [contactChanged_own b hu, hu]
  · simp [contactChanged, hu, addHandle, or_comm]

/-- The set that is announced gains the handle of the user, unless it is the
account's own. -/
theorem mem_contacts_contactChanged (handle : TpHandle) :
    handle ∈ (contactChanged E myUid b user).contacts ↔
      handle ∈ b.contacts ∨ user.uid ≠ myUid ∧ handle = E.ensureHandle user.uid := by
  by_cases hu : user.uid = myUid <;> simp [contactChanged, hu, or_comm]

/-- The published set stays the set of keys of the table. -/
theorem contactChanged_published (h : ∀ handle, handle ∈ b.list.contacts ↔
      handle ∈ b.list.fbContacts) (handle : TpHandle) :
    handle ∈ (contactChanged E myUid b user).list.contacts ↔
      handle ∈ (contactChanged E myUid b user).list.fbContacts := by
  rw [mem_fbContacts_contactChanged]
  by_cases hu : user.uid = myUid
  · simp [contactChanged_own b hu, hu, h]
  · by_cases hm : E.ensureHandle user.uid ∈ b.list.fbContacts
    · simp only [contactChanged, hu, addHandle, hm, if_false, if_true, h]
      constructor
      · exact Or.inl
      · rintro (hh | ⟨-, rfl⟩)
        · exact hh
        · exact hm
    · simp [contactChanged, hu, addHandle, hm, h, or_comm]

end

/-- **What a batch announces**: exactly the handles of its users other than the
account's own, and nothing when there are none. -/
theorem announced_runBatch (myUid : FbId) (list : ContactList) (users : List FbApiUser) :
    (runBatch E myUid list users).contacts =
      ((users.filter (·.uid ≠ myUid)).map fun user ↦ E.ensureHandle user.uid).toFinset := by
  have hfold (b : Batch) (handle : TpHandle) :
      handle ∈ (users.foldl (contactChanged E myUid) b).contacts ↔
        handle ∈ b.contacts ∨
          ∃ user ∈ users, user.uid ≠ myUid ∧ handle = E.ensureHandle user.uid := by
    induction users generalizing b with
    | nil => simp
    | cons user users ih =>
        rw [List.foldl_cons, ih, mem_contacts_contactChanged, List.exists_mem_cons_iff, or_assoc]
  ext handle
  rw [runBatch, hfold]
  simp [and_assoc, @eq_comm _ handle]

/-! ## Presence batches -/

/-- The presence statuses, in the order of the table `statuses`. -/
inductive PresenceStatus where
  | away | available | unknown
deriving DecidableEq, Repr

/-- `tp_presence_status_new` of an activity flag. -/
def PresenceStatus.ofActive (active : Bool) : PresenceStatus :=
  if active then .available else .away

/-- A `status_table`. -/
abbrev StatusTable := AList fun _ : TpHandle ↦ PresenceStatus

/-- One round of the loop of `fb_contact_list_fb_presences_changed`. -/
def presenceChanged (s : ContactList × StatusTable) (pres : FbApiPresence) :
    Option (ContactList × StatusTable) :=
  let handle := E.ensureHandle pres.uid
  let list := s.1.addHandle handle
  if handle ≠ 0 then
    match getUser E list handle with
    | none => none
    | some c =>
        if c.active ≠ pres.active then
          some (list.store { c with active := pres.active } (userRef E handle),
            s.2.insert handle (.ofActive pres.active))
        else some (list, s.2)
  else some (list, s.2)

/-- `fb_contact_list_fb_presences_changed`: the list after it, and the statuses
that are emitted. -/
def presencesChanged (list : ContactList) (presences : List FbApiPresence) :
    Option (ContactList × StatusTable) :=
  presences.foldlM (presenceChanged E) (list, ∅)

section

variable {E}

/-- A presence is taken exactly when its handle has a record. -/
theorem isSome_presenceChanged (s : ContactList × StatusTable) (pres : FbApiPresence) :
    (presenceChanged E s pres).isSome ↔
      (getUser E s.1 (E.ensureHandle pres.uid)).isSome := by
  have hne : E.ensureHandle pres.uid ≠ 0 := E.repo.ensure_ne_zero _
  simp only [presenceChanged, if_pos hne, getUser_addHandle]
  cases getUser E s.1 (E.ensureHandle pres.uid) with
  | none => rfl
  | some c => by_cases hact : c.active = pres.active <;> simp [hact]

/-- What a presence does: the flag of the record is set, and nothing else changes. -/
theorem presenceChanged_spec {s s' : ContactList × StatusTable} {pres : FbApiPresence}
    (h : presenceChanged E s pres = some s') :
    ∃ c, getUser E s.1 (E.ensureHandle pres.uid) = some c ∧
      s'.1.contacts = s.1.contacts ∧
      ((fbIdToStr pres.uid = E.fbId ∧ s'.1.me = { s.1.me with active := pres.active } ∧
          s'.1.fbContacts = s.1.fbContacts) ∨
        (fbIdToStr pres.uid ≠ E.fbId ∧ s'.1.me = s.1.me ∧
          ∀ handle, s'.1.fbContacts.lookup handle =
            if handle = E.ensureHandle pres.uid then some { c with active := pres.active }
            else s.1.fbContacts.lookup handle)) := by
  have hsome := (isSome_presenceChanged s pres).mp (by rw [h]; rfl)
  obtain ⟨c, hc⟩ := Option.isSome_iff_exists.mp hsome
  have hne : E.ensureHandle pres.uid ≠ 0 := E.repo.ensure_ne_zero _
  rw [presenceChanged, if_pos hne, getUser_addHandle, hc] at h
  refine ⟨c, hc, ?_⟩
  by_cases hid : fbIdToStr pres.uid = E.fbId
  · have hself := (E.ensureHandle_eq_selfHandle pres.uid).mpr hid
    obtain rfl : s.1.me = c := by simpa [hself] using hc
    by_cases hact : s.1.me.active = pres.active
    · obtain rfl : _ = s' := by simpa [hact] using h
      exact ⟨rfl, .inl ⟨hid, by rw [← hact]; rfl, rfl⟩⟩
    · obtain rfl : _ = s' := by simpa [hact, userRef, hself] using h
      exact ⟨rfl, .inl ⟨hid, rfl, rfl⟩⟩
  · have hself := mt (E.ensureHandle_eq_selfHandle pres.uid).mp hid
    rw [getUser_of_ne E _ hself] at hc
    by_cases hact : c.active = pres.active
    · obtain rfl : _ = s' := by simpa [hact] using h
      refine ⟨rfl, .inr ⟨hid, rfl, fun handle ↦ ?_⟩⟩
      split
      · next hh => rw [hh, ← hact]; exact hc
      · rfl
    · obtain rfl : _ = s' := by simpa [hact, userRef, hself] using h
      refine ⟨rfl, .inr ⟨hid, rfl, fun handle ↦ ?_⟩⟩
      split
      · next hh => rw [hh]; exact AList.lookup_insert _
      · next hh => exact AList.lookup_insert_ne hh

/-- A presence neither makes nor removes a record. -/
theorem isSome_getUser_presenceChanged {s s' : ContactList × StatusTable}
    {pres : FbApiPresence} (h : presenceChanged E s pres = some s') (handle : TpHandle) :
    (getUser E s'.1 handle).isSome ↔ (getUser E s.1 handle).isSome := by
  obtain ⟨c, hc, -, ⟨-, -, htable⟩ | ⟨hid, -, htable⟩⟩ := presenceChanged_spec h
  · rw [isSome_getUser, isSome_getUser, htable]
  · have hself := mt (E.ensureHandle_eq_selfHandle pres.uid).mp hid
    rw [getUser_of_ne E _ hself] at hc
    rw [isSome_getUser, isSome_getUser, ← AList.lookup_isSome, ← AList.lookup_isSome, htable]
    split
    · next hh =>
        subst hh
        simp [hc]
    · rfl

/-- A batch of presences is taken exactly when all its handles have records. -/
theorem isSome_presencesChanged (list : ContactList) (presences : List FbApiPresence) :
    (presencesChanged E list presences).isSome ↔
      ∀ pres ∈ presences, (getUser E list (E.ensureHandle pres.uid)).isSome := by
  refine isSome_foldlM_of_invariant
    (P := fun s : ContactList × StatusTable ↦
      ∀ handle, (getUser E s.1 handle).isSome ↔ (getUser E list handle).isSome)
    ?_ ?_ (fun _ ↦ Iff.rfl) presences
  · intro s pres s' hs hp handle
    rw [isSome_getUser_presenceChanged hp, hs]
  · intro s pres hs
    rw [isSome_presenceChanged, hs]

end

end ContactList

end TelepathyFacebook
