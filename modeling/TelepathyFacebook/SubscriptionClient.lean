import TelepathyFacebook.PresenceClient

/-!
# Announced and queried subscriptions

A client of the contact list (`tp/contact-list.c`) is told the contacts and their states when
the list has been received, and then the states of every contact that a batch announces, all of
them from `dup_states`.

* `runBatch_effect`: a batch changes no record but those it announces, and the account's own.
* `mirrors_iff`: the client holds at any time what it would be told anew, if and only if no
  report of the account itself changes the states of a contact under the handle of the account.
-/

namespace TelepathyFacebook

open Runs ContactList

/-- `TpSubscriptionState`, the ones that are used. -/
inductive SubscriptionState where
  | unknown | no | ask | yes
deriving DecidableEq, Repr

/-- `map_friendship_to_publish`, with the text of a request. -/
def mapFriendshipToPublish : FbApiFriendshipStatus → SubscriptionState × Option String
  | .areFriends => (.yes, none)
  | .incomingRequest => (.ask, some "Incoming friend request")
  | .outgoingRequest | .canRequest | .canReconfirm | .cannotRequest | .notFriends | .blocked
  | .deactivated => (.no, none)
  | .unknown => (.unknown, none)

/-- What `dup_states` answers.  The text is where its caller has put NULL before. -/
structure ContactStates where
  subscribe : SubscriptionState
  publish : SubscriptionState
  publishRequest : Option String
deriving DecidableEq, Repr

/-- The states of a record. -/
def FbApiFriendshipStatus.states (fs : FbApiFriendshipStatus) : ContactStates where
  subscribe := if fs = .areFriends then .yes else .no
  publish := (mapFriendshipToPublish fs).1
  publishRequest := (mapFriendshipToPublish fs).2

namespace ContactList

/-- `fb_contact_list_dup_states`. -/
def dupStates (E : ContactEnv) (list : ContactList) (contact : TpHandle) : ContactStates :=
  match getUser E list contact with
  | none => ⟨.unknown, .unknown, none⟩
  | some c => c.fs.states

/-- What a client that is told everything holds. -/
def told (E : ContactEnv) (list : ContactList) (contact : TpHandle) : Option ContactStates :=
  if contact ∈ list.dupContacts then some (dupStates E list contact) else none

theorem told_of_mem {E : ContactEnv} {list : ContactList} {contact : TpHandle}
    (h : contact ∈ list.contacts) : told E list contact = some (dupStates E list contact) :=
  if_pos h

theorem told_of_notMem {E : ContactEnv} {list : ContactList} {contact : TpHandle}
    (h : contact ∉ list.contacts) : told E list contact = none := if_neg h

/-- The published set is the set of keys of the table. -/
def Published (list : ContactList) : Prop :=
  ∀ handle, handle ∈ list.contacts ↔ handle ∈ list.fbContacts

variable {E : ContactEnv}

/-- **What a batch does to the list**: the contacts that it announces join, other records stay,
and the friendship of the account's own is the last that is reported. -/
theorem runBatch_effect {list : ContactList} (h : list.Published) (myUid : FbId)
    (users : List FbApiUser) :
    let b := runBatch E myUid list users
    b.list.Published ∧
      (∀ handle, handle ∈ b.list.contacts ↔ handle ∈ list.contacts ∨ handle ∈ b.contacts) ∧
      (∀ handle, handle ∉ b.contacts → handle ≠ E.selfHandle →
        getUser E b.list handle = getUser E list handle) ∧
      b.list.me.fs = reportedFs E myUid .me list.me.fs users := by
  refine List.foldl_rel
    (r := fun (b : Batch) fs ↦ b.list.Published ∧
      (∀ handle, handle ∈ b.list.contacts ↔ handle ∈ list.contacts ∨ handle ∈ b.contacts) ∧
      (∀ handle, handle ∉ b.contacts → handle ≠ E.selfHandle →
        getUser E b.list handle = getUser E list handle) ∧ b.list.me.fs = fs)
    ⟨h, by simp, fun _ _ _ ↦ rfl, rfl⟩ ?_
  rintro user - b fs ⟨hpub, hmem, hget, hme⟩
  refine ⟨contactChanged_published b hpub, fun handle ↦ ?_, fun handle hnot hself ↦ ?_, ?_⟩
  · rw [contactChanged_published b hpub, mem_fbContacts_contactChanged, ← hpub, hmem,
      mem_contacts_contactChanged, or_assoc]
  · rw [mem_contacts_contactChanged, not_or] at hnot
    rw [← hget handle hnot.1 hself, getUser_of_ne E _ hself, getUser_of_ne E _ hself]
    refine lookup_contactChanged_of_ne b ?_
    by_contra hboth
    rw [not_or, not_not] at hboth
    exact hnot.2 hboth
  · by_cases hu : user.uid = myUid
    · rw [contactChanged_own b hu, if_pos (by rw [recordRef, if_pos hu])]
      rfl
    · rw [contactChanged_me b hu, if_neg (by rw [recordRef, if_neg hu]; exact Ref.noConfusion),
        hme]

theorem dupStates_selfHandle (list : ContactList) :
    dupStates E list E.selfHandle = list.me.fs.states := by
  rw [dupStates, getUser_selfHandle]

/-- The states of a contact are those of its friendship. -/
theorem dupStates_congr {list list' : ContactList} {handle : TpHandle}
    (h : (getUser E list' handle).map FbContact.fs = (getUser E list handle).map FbContact.fs) :
    dupStates E list' handle = dupStates E list handle := by
  rw [dupStates, dupStates]
  cases hc : getUser E list handle with
  | none =>
      rw [hc, Option.map_none, Option.map_eq_none_iff] at h
      rw [h]
  | some c =>
      rw [hc, Option.map_some, Option.map_eq_some_iff] at h
      obtain ⟨c', hc', hfs⟩ := h
      rw [hc']
      exact congrArg FbApiFriendshipStatus.states hfs

theorem fs_presenceChanged {s s' : ContactList × StatusTable} {pres : FbApiPresence}
    (h : presenceChanged E s pres = some s') (handle : TpHandle) :
    (getUser E s'.1 handle).map FbContact.fs = (getUser E s.1 handle).map FbContact.fs := by
  rw [getUser_presenceChanged h, Option.map_map]
  congr 1
  funext c
  show FbContact.fs (if _ then _ else _) = c.fs
  split <;> rfl

theorem Published.presenceChanged {s s' : ContactList × StatusTable} {pres : FbApiPresence}
    (hpub : s.1.Published) (h : presenceChanged E s pres = some s') : s'.1.Published := by
  intro handle
  obtain ⟨c, hc, hcontacts, ⟨-, -, htable⟩ | ⟨hid, -, htable⟩⟩ := presenceChanged_spec h
  · rw [hcontacts, htable, hpub]
  · have hself := mt (E.ensureHandle_eq_selfHandle pres.uid).mp hid
    rw [getUser_of_ne E _ hself] at hc
    rw [hcontacts, hpub, ← AList.lookup_isSome, ← AList.lookup_isSome, htable]
    split
    · next hh =>
        subst hh
        simp [hc]
    · rfl

/-- **What presences do to the states**: nothing. -/
theorem presencesChanged_states {list : ContactList} (hpub : list.Published)
    {presences : List FbApiPresence} {p : ContactList × StatusTable}
    (h : presencesChanged E list presences = some p) :
    p.1.Published ∧ told E p.1 = told E list := by
  have hinv := foldlM_invariant
    (P := fun s : ContactList × StatusTable ↦ s.1.Published ∧ s.1.contacts = list.contacts ∧
      ∀ handle, (getUser E s.1 handle).map FbContact.fs = (getUser E list handle).map FbContact.fs)
    (f := ContactList.presenceChanged E) ?_ ⟨hpub, rfl, fun _ ↦ rfl⟩ h
  · obtain ⟨hpub', hcontacts, hfs⟩ := hinv
    refine ⟨hpub', ?_⟩
    funext handle
    rw [told, told, dupContacts, dupContacts, hcontacts, dupStates_congr (hfs handle)]
  · rintro s pres s' ⟨hpub, hcontacts, hfs⟩ hs
    refine ⟨hpub.presenceChanged hs, ?_,
      fun handle ↦ (fs_presenceChanged hs handle).trans (hfs handle)⟩
    obtain ⟨c, -, hsame, -⟩ := presenceChanged_spec hs
    rw [hsame, hcontacts]

end ContactList

/-- A client of the contact list, next to it; it holds nothing before the list was received. -/
structure SubscriptionClient where
  list : ContactList
  held : Option (TpHandle → Option ContactStates)

/-- What happens to a client and the contact list. -/
inductive SubscriptionEvent where
  /-- `fb_contact_list_fb_contacts_changed`. -/
  | contacts (myUid : FbId) (users : List FbApiUser)
  /-- `fb_contact_list_fb_presences_changed`. -/
  | presences (presences : List FbApiPresence)
  /-- `tp_base_contact_list_set_list_received`. -/
  | received

namespace SubscriptionClient

variable (E : ContactEnv)

def init : SubscriptionClient := ⟨ContactList.init E, none⟩

/-- One event; a crash is `none`. -/
def step (s : SubscriptionClient) : SubscriptionEvent → Option SubscriptionClient
  | .contacts myUid users =>
      let b := runBatch E myUid s.list users
      some ⟨b.list, s.held.map fun held handle ↦
        if handle ∈ b.contacts then some (dupStates E b.list handle) else held handle⟩
  | .presences presences =>
      (presencesChanged E s.list presences).map fun p ↦ { s with list := p.1 }
  | .received => some { s with held := some (s.held.getD (told E s.list)) }

/-- The client holds what it would be told anew. -/
def Mirrors (s : SubscriptionClient) : Prop := ∀ held ∈ s.held, held = told E s.list

/-- The condition on an event: a report of the account itself leaves the states under its own
handle, or no contact is filed there, or the batch announces it. -/
def Steady (s : SubscriptionClient) : SubscriptionEvent → Prop
  | .contacts myUid users => s.held.isSome → E.selfHandle ∈ s.list.contacts →
      E.selfHandle ∉ (runBatch E myUid s.list users).contacts →
        (reportedFs E myUid .me s.list.me.fs users).states = s.list.me.fs.states
  | _ => True

variable {E}

/-- A batch keeps the client up to date exactly when it is steady. -/
theorem mirrors_contacts_iff {s : SubscriptionClient} (hpub : s.list.Published)
    (h : Mirrors E s) (myUid : FbId) (users : List FbApiUser) :
    (∀ t ∈ step E s (.contacts myUid users), Mirrors E t) ↔ Steady E s (.contacts myUid users) := by
  obtain ⟨hpub', hmem, hget, hme⟩ := runBatch_effect (E := E) hpub myUid users
  cases hheld : s.held with
  | none => simp [step, Mirrors, Steady, hheld]
  | some held =>
      obtain rfl := h held hheld
      simp only [step, Mirrors, Steady, hheld, Option.map_some, Option.mem_some_iff, forall_eq',
        Option.isSome_some, true_implies]
      rw [← hme, ← dupStates_selfHandle (E := E), ← dupStates_selfHandle (E := E)]
      generalize runBatch E myUid s.list users = b at *
      constructor
      · intro hsame hin hnot
        have hone := congrFun hsame E.selfHandle
        rw [if_neg hnot, told_of_mem hin, told_of_mem ((hmem _).mpr (.inl hin))] at hone
        exact (Option.some.inj hone).symm
      · intro hsteady
        funext handle
        by_cases hb : handle ∈ b.contacts
        · rw [if_pos hb, told_of_mem ((hmem handle).mpr (.inr hb))]
        · have hstates (hin : handle ∈ s.list.contacts) :
              dupStates E b.list handle = dupStates E s.list handle := by
            rcases eq_or_ne handle E.selfHandle with rfl | hself
            · exact hsteady hin hb
            · exact dupStates_congr (congrArg _ (hget handle hb hself))
          rw [if_neg hb]
          by_cases hin : handle ∈ s.list.contacts
          · rw [told_of_mem hin, told_of_mem ((hmem handle).mpr (.inl hin)), hstates hin]
          · rw [told_of_notMem hin, told_of_notMem fun hin' ↦ ((hmem handle).mp hin').elim hin hb]

theorem published_init : (init E).list.Published := fun _ ↦ by
  simp [init, ContactList.init]

theorem mirrors_init : Mirrors E (init E) := fun _ h ↦ nomatch h

/-- The published set stays the set of keys, along all events. -/
theorem published_step {s t : SubscriptionClient} (hpub : s.list.Published)
    {e : SubscriptionEvent} (h : step E s e = some t) : t.list.Published := by
  cases e with
  | contacts myUid users =>
      obtain rfl := Option.some.inj h
      exact (runBatch_effect hpub myUid users).1
  | presences presences =>
      obtain ⟨p, hp, rfl⟩ := Option.map_eq_some_iff.mp h
      exact (presencesChanged_states hpub hp).1
  | received =>
      obtain rfl := Option.some.inj h
      exact hpub

/-- **One event** keeps the client up to date exactly when it is steady. -/
theorem mirrors_step_iff {s t : SubscriptionClient} (hpub : s.list.Published) (h : Mirrors E s)
    {e : SubscriptionEvent} (ht : step E s e = some t) : Mirrors E t ↔ Steady E s e := by
  cases e with
  | contacts myUid users =>
      rw [← mirrors_contacts_iff hpub h myUid users, ht]
      simp
  | presences presences =>
      refine iff_of_true ?_ trivial
      obtain ⟨p, hp, rfl⟩ := Option.map_eq_some_iff.mp ht
      intro held hheld
      rw [h held hheld, (presencesChanged_states hpub hp).2]
  | received =>
      refine iff_of_true ?_ trivial
      obtain rfl := Option.some.inj ht
      rintro held ⟨⟩
      cases hheld : s.held with
      | none => rfl
      | some held => exact h held hheld

/-- **When announced and queried subscriptions agree.**  In every state of a run, up to a crash,
a client that applies the announcements from the time the list was received on holds the
contacts and the states that it would be told anew, if and only if every event is steady. -/
theorem mirrors_iff (es : List SubscriptionEvent) :
    Always (crashing (step E)) (fun t ↦ ∀ s ∈ t, Mirrors E s) (some (init E)) es ↔
      Steps (crashing (step E)) (fun t e ↦ ∀ s ∈ t, (step E s e).isSome → Steady E s e)
        (some (init E)) es := by
  refine always_iff (P := fun t ↦ ∀ s ∈ t, s.list.Published) ?_ ?_ ?_ ?_ es
  · intro t e hpub
    cases t with
    | none => simp
    | some s => exact fun t ht ↦ published_step (hpub s rfl) ht
  · intro t e hpub ht
    cases t with
    | none => simp
    | some s =>
        cases hs : step E s e with
        | none => simp [hs]
        | some s' => simpa [hs] using mirrors_step_iff (hpub s rfl) (ht s rfl) hs
  · rintro s ⟨⟩
    exact published_init
  · rintro s ⟨⟩
    exact mirrors_init

end SubscriptionClient

end TelepathyFacebook
