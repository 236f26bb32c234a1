import TelepathyFacebook.ContactList
import TelepathyFacebook.Lib.Runs

/-!
# The contact list refines a roster

What the contact list is for, in terms of uids: a `Roster` remembers the last
report and the last presence of every user.  The table of records under handles
(`ContactList`) stands for it along every run of contact batches and presence
batches.

* `Represents` is the relation, kept by one report
  (`Represents.contactChanged`) and by one presence
  (`Represents.presenceChanged`).
* `contactList_refines` is the refinement, for presences of known contacts.

The uid that a contact batch compares with is read from the `FbApi` anew in every
batch, so it is part of the event.
-/

namespace TelepathyFacebook

open Runs

/-- What the account knows of its users. -/
structure Roster where
  /-- The last report of the account's own user. -/
  own : Option FbApiUser
  /-- The last report of every other user. -/
  report : FbId → Option FbApiUser
  /-- The activity of the last presence of every user. -/
  active : FbId → Bool

/-- A call of `fb_contact_list_fb_contacts_changed`, with the uid of the `FbApi` at
that time, or of `fb_contact_list_fb_presences_changed`. -/
inductive RosterEvent where
  | contacts (myUid : FbId) (users : List FbApiUser)
  | presences (presences : List FbApiPresence)

namespace Roster

/-- Nobody was reported. -/
def init : Roster := ⟨none, fun _ ↦ none, fun _ ↦ false⟩

/-- A report of one user. -/
def reportUser (myUid : FbId) (r : Roster) (user : FbApiUser) : Roster :=
  if user.uid = myUid then { r with own := some user }
  else { r with report := Function.update r.report user.uid (some user) }

/-- The presence of one user. -/
def setActive (r : Roster) (pres : FbApiPresence) : Roster :=
  { r with active := Function.update r.active pres.uid pres.active }

/-- The handles of the users other than the account's own, if there are any. -/
def announced (E : ContactEnv) (myUid : FbId) (users : List FbApiUser) :
    Option (Finset TpHandle) :=
  let others := ((users.filter (·.uid ≠ myUid)).map fun user ↦ E.ensureHandle user.uid).toFinset
  if others = ∅ then none else some others

/-- One event: the roster after it, and the handles that are announced. -/
def step (E : ContactEnv) (r : Roster) : RosterEvent → Roster × Option (Finset TpHandle)
  | .contacts myUid users => (users.foldl (reportUser myUid) r, announced E myUid users)
  | .presences presences => (presences.foldl setActive r, none)

/-- Every presence is of a user that was reported, or of the login id. -/
def Known (E : ContactEnv) (r : Roster) : RosterEvent → Prop
  | .contacts _ _ => True
  | .presences presences =>
      ∀ pres ∈ presences, fbIdToStr pres.uid = E.fbId ∨ (r.report pres.uid).isSome

theorem reportUser_own {myUid : FbId} (r : Roster) {user : FbApiUser} (h : user.uid = myUid) :
    r.reportUser myUid user = { r with own := some user } := by
  simp [reportUser, h]

theorem reportUser_other {myUid : FbId} (r : Roster) {user : FbApiUser} (h : user.uid ≠ myUid) :
    r.reportUser myUid user =
      { r with report := Function.update r.report user.uid (some user) } := by
  simp [reportUser, h]

end Roster

namespace ContactList

variable {E : ContactEnv}

/-! ## The relation -/

/-- The record agrees with a report in everything that a report sets. -/
structure FilledFrom (c : FbContact) (user : FbApiUser) : Prop where
  name : c.name = user.name
  icon : c.icon = user.icon
  fs : c.fs = user.fs

theorem filledFrom_update (c : FbContact) (user : FbApiUser) (token : Option String) :
    FilledFrom (c.update user token) user := ⟨rfl, rfl, rfl⟩

/-- The activity flag of a record, FALSE where there is none. -/
def activeOf (list : ContactList) (handle : TpHandle) : Bool :=
  ((list.fbContacts.lookup handle).map FbContact.active).getD false

/-- The contact list holds what the roster knows. -/
structure Represents (E : ContactEnv) (list : ContactList) (r : Roster) : Prop where
  /-- The published set is the set of keys of the table. -/
  published : ∀ handle, handle ∈ list.contacts ↔ handle ∈ list.fbContacts
  /-- The keys are the handles of the users that were reported. -/
  keys : ∀ handle, handle ∈ list.fbContacts ↔
    ∃ uid, (r.report uid).isSome ∧ handle = E.ensureHandle uid
  /-- Reports are filed under their uid. -/
  filed : ∀ uid user, r.report uid = some user → user.uid = uid
  /-- A record holds the last report of its user. -/
  record : ∀ uid user, r.report uid = some user →
    ∃ c, list.fbContacts.lookup (E.ensureHandle uid) = some c ∧ FilledFrom c user
  own : ∀ user, r.own = some user → FilledFrom list.me user
  /-- Its activity is that of the last presence.  The presences of a user whose uid
  is the login id go to the account's own record. -/
  active : ∀ uid, fbIdToStr uid ≠ E.fbId → activeOf list (E.ensureHandle uid) = r.active uid

theorem represents_init : Represents E (init E) Roster.init where
  published _ := by simp [init]
  keys _ := by simp [init, Roster.init]
  filed _ _ h := by cases h
  record _ _ h := by cases h
  own _ h := by cases h
  active _ _ := rfl

/-! ## One report -/

theorem Represents.reportOwn {list : ContactList} {r : Roster} (h : Represents E list r)
    (user : FbApiUser) (token : Option String) :
    Represents E { list with me := list.me.update user token } { r with own := some user } where
  published := h.published
  keys := h.keys
  filed := h.filed
  record := h.record
  own user' hu := by
    obtain rfl : user = user' := by simpa using hu
    exact filledFrom_update _ _ _
  active := h.active

/-- **One report** keeps the relation. -/
theorem Represents.contactChanged {myUid : FbId} {b : Batch} {r : Roster}
    (h : Represents E b.list r) (user : FbApiUser) :
    Represents E (contactChanged E myUid b user).list (r.reportUser myUid user) := by
  by_cases hu : user.uid = myUid
  · rw [contactChanged_own b hu, Roster.reportUser_own r hu]
    exact h.reportOwn user _
  rw [Roster.reportUser_other r hu]
  have hself := lookup_contactChanged_self (E := E) b hu
  have hother {uid : FbId} (hne : uid ≠ user.uid) :
      (ContactList.contactChanged E myUid b user).list.fbContacts.lookup (E.ensureHandle uid) =
        b.list.fbContacts.lookup (E.ensureHandle uid) :=
    lookup_contactChanged_of_ne b (.inr (E.ensureHandle_injective.ne hne))
  refine ⟨contactChanged_published b h.published, fun handle ↦ ?_, fun uid user' hu' ↦ ?_,
    fun uid user' hu' ↦ ?_, fun user' hu' ↦ ?_, fun uid hid ↦ ?_⟩
  · rw [mem_fbContacts_contactChanged, h.keys]
    constructor
    · rintro (⟨uid, hr, rfl⟩ | ⟨-, rfl⟩)
      · refine ⟨uid, ?_, rfl⟩
        by_cases hne : uid = user.uid
        · simp [hne]
        · simpa [hne] using hr
      · exact ⟨user.uid, by simp, rfl⟩
    · rintro ⟨uid, hr, rfl⟩
      by_cases hne : uid = user.uid
      · exact .inr ⟨hu, by rw [hne]⟩
      · exact .inl ⟨uid, by simpa [hne] using hr, rfl⟩
  · rcases eq_or_ne uid user.uid with rfl | hne
    · obtain rfl : user = user' := by simpa using hu'
      rfl
    · exact h.filed uid user' (by simpa [hne] using hu')
  · rcases eq_or_ne uid user.uid with rfl | hne
    · obtain rfl : user = user' := by simpa using hu'
      exact ⟨_, hself, filledFrom_update _ _ _⟩
    · rw [hother hne]
      exact h.record uid user' (by simpa [hne] using hu')
  · rw [contactChanged_me b hu]
    exact h.own user' hu'
  · rw [← h.active uid hid]
    rcases eq_or_ne uid user.uid with rfl | hne
    · rw [activeOf, hself, activeOf]
      cases b.list.fbContacts.lookup (E.ensureHandle user.uid) <;> rfl
    · rw [activeOf, hother hne, activeOf]

/-- A batch of reports keeps the relation. -/
theorem Represents.runBatch {list : ContactList} {r : Roster} (h : Represents E list r)
    (myUid : FbId) (users : List FbApiUser) :
    Represents E (runBatch E myUid list users).list (users.foldl (Roster.reportUser myUid) r) :=
  List.foldl_rel (r := fun (b : Batch) r ↦ Represents E b.list r) h
    fun user _ _ _ hb ↦ hb.contactChanged user

/-! ## One presence -/

/-- **One presence** keeps the relation. -/
theorem Represents.presenceChanged {s s' : ContactList × StatusTable} {r : Roster}
    (h : Represents E s.1 r) {pres : FbApiPresence}
    (hs : presenceChanged E s pres = some s') : Represents E s'.1 (r.setActive pres) := by
  obtain ⟨c, hc, hcontacts, ⟨hid, hme, htable⟩ | ⟨hid, hme, htable⟩⟩ := presenceChanged_spec hs
  · refine ⟨?_, ?_, h.filed, ?_, fun user hu ↦ ?_, fun uid huid ↦ ?_⟩
    · rw [hcontacts, htable]
      exact h.published
    · rw [htable]
      exact h.keys
    · rw [htable]
      exact h.record
    · rw [hme]
      exact ⟨(h.own user hu).name, (h.own user hu).icon, (h.own user hu).fs⟩
    · have hne : uid ≠ pres.uid := by
        rintro rfl
        exact huid hid
      simpa [activeOf, htable, Roster.setActive, hne] using h.active uid huid
  · have hself := mt (E.ensureHandle_eq_selfHandle pres.uid).mp hid
    rw [getUser_of_ne E _ hself] at hc
    have hmem (handle : TpHandle) : handle ∈ s'.1.fbContacts ↔ handle ∈ s.1.fbContacts := by
      rw [← AList.lookup_isSome, ← AList.lookup_isSome, htable]
      split
      · next hh =>
          rw [hh, hc]
          rfl
      · rfl
    refine ⟨fun handle ↦ ?_, fun handle ↦ ?_, h.filed, fun uid user hu ↦ ?_, ?_,
      fun uid huid ↦ ?_⟩
    · rw [hcontacts, hmem]
      exact h.published handle
    · rw [hmem]
      exact h.keys handle
    · obtain ⟨c', hc', hfilled⟩ := h.record uid user hu
      rw [htable]
      split
      · next hh =>
          rw [hh, hc] at hc'
          obtain rfl : c = c' := Option.some.inj hc'
          exact ⟨_, rfl, hfilled.name, hfilled.icon, hfilled.fs⟩
      · exact ⟨c', hc', hfilled⟩
    · rw [hme]
      exact h.own
    · by_cases hne : uid = pres.uid
      · simp [activeOf, htable, hne, Roster.setActive]
      · have hh : E.ensureHandle uid ≠ E.ensureHandle pres.uid :=
          E.ensureHandle_injective.ne hne
        simpa [activeOf, htable, hh, Roster.setActive, hne] using h.active uid huid

/-- A batch of presences keeps the relation. -/
theorem Represents.presencesChanged {list : ContactList} {r : Roster}
    (h : Represents E list r) {presences : List FbApiPresence} {s' : ContactList × StatusTable}
    (hs : presencesChanged E list presences = some s') :
    Represents E s'.1 (presences.foldl Roster.setActive r) :=
  foldlM_rel (R := fun s r ↦ Represents E s.1 r) (fun _ _ _ _ hb hp ↦ hb.presenceChanged hp) h hs

/-- A batch of presences is taken when all its users are known. -/
theorem Represents.isSome_presencesChanged {list : ContactList} {r : Roster}
    (h : Represents E list r) (presences : List FbApiPresence) :
    (ContactList.presencesChanged E list presences).isSome ↔
      ∀ pres ∈ presences, fbIdToStr pres.uid = E.fbId ∨ (r.report pres.uid).isSome := by
  rw [ContactList.isSome_presencesChanged]
  apply forall₂_congr
  intro pres _
  rw [isSome_getUser, E.ensureHandle_eq_selfHandle, h.keys]
  refine or_congr_right ⟨?_, fun hr ↦ ⟨pres.uid, hr, rfl⟩⟩
  rintro ⟨uid, hr, huid⟩
  rwa [E.ensureHandle_injective huid]

/-! ## The refinement -/

variable (E)

/-- One event on the contact list, and the handles it announces; a crash is
`none`. -/
def event (list : ContactList) : RosterEvent → Option (ContactList × Option (Finset TpHandle))
  | .contacts myUid users => some (contactsChanged E myUid list users)
  | .presences presences => (presencesChanged E list presences).map fun s ↦ (s.1, none)

/-- The machine of contact batches and presence batches. -/
def step (t : Option ContactList) (e : RosterEvent) :
    Option ContactList × Option (Finset TpHandle) :=
  ((t.bind (event E · e)).map Prod.fst, (t.bind (event E · e)).bind Prod.snd)

theorem announced_contactsChanged (myUid : FbId) (list : ContactList) (users : List FbApiUser) :
    (contactsChanged E myUid list users).2 = Roster.announced E myUid users := by
  rw [contactsChanged, Batch.announced, announced_runBatch, Roster.announced]

/-- The contact list simulates the roster, as long as presences are of known
users. -/
theorem step_simulates :
    Simulates (fun t r ↦ ∃ list, t = some list ∧ Represents E list r) (Roster.Known E) (step E)
      (Roster.step E) := by
  rintro t r e ⟨list, rfl, h⟩ hknown
  cases e with
  | contacts myUid users =>
      exact ⟨⟨_, rfl, h.runBatch myUid users⟩, announced_contactsChanged E myUid list users⟩
  | presences presences =>
      obtain ⟨s', hs⟩ := Option.isSome_iff_exists.mp
        ((h.isSome_presencesChanged presences).mpr hknown)
      refine ⟨⟨s'.1, ?_, h.presencesChanged hs⟩, ?_⟩ <;>
        simp [step, event, hs, Roster.step]

/-- **The contact list refines the roster.**  After any run of contact batches, and
of presence batches for known users, the published set is the set of keys of the
table, the keys are the handles of the users that were reported, each of these
except the user of the login id is found under its handle with the name, icon and
friendship status of its last report and the activity of its last presence, and
the announcements were those of the roster. -/
theorem contactList_refines (es : List RosterEvent)
    (hes : Steps (fun r e ↦ (Roster.step E r e).1) (Roster.Known E) Roster.init es) :
    ∃ list, final (step E) (some (init E)) es = some list ∧
      dupContacts list = list.fbContacts.keys.toFinset ∧
      (∀ handle, handle ∈ list.fbContacts ↔
        ∃ uid, ((final (Roster.step E) Roster.init es).report uid).isSome ∧
          handle = E.ensureHandle uid) ∧
      (∀ uid user, (final (Roster.step E) Roster.init es).report uid = some user →
        fbIdToStr uid ≠ E.fbId →
          ∃ c, getUser E list (E.ensureHandle uid) = some c ∧ c.name = user.name ∧
            c.icon = user.icon ∧ c.fs = user.fs ∧
            c.active = (final (Roster.step E) Roster.init es).active uid) ∧
      outputs (step E) (some (init E)) es = outputs (Roster.step E) Roster.init es := by
  obtain ⟨list, hlist, h⟩ :=
    (step_simulates E).final ⟨init E, rfl, represents_init⟩ hes
  have houtputs := (step_simulates E).outputs_eq ⟨init E, rfl, represents_init⟩ hes
  refine ⟨list, hlist, ?_, h.keys, fun uid user hu hid ↦ ?_, houtputs⟩
  · ext handle
    rw [dupContacts, h.published, List.mem_toFinset, AList.mem_keys]
  · obtain ⟨c, hc, hfilled⟩ := h.record uid user hu
    have hself := mt (E.ensureHandle_eq_selfHandle uid).mp hid
    refine ⟨c, (getUser_of_ne E list hself).trans hc, hfilled.name, hfilled.icon, hfilled.fs, ?_⟩
    rw [← h.active uid hid, activeOf, hc]
    rfl

/-- A contact that is reported and then comes online. -/
theorem contactList_refines_bob :
    ∃ list c, final (step (.unmatched "login")) (some (init (.unmatched "login")))
        [.contacts 1 [⟨2, some "Bob", some "http://h/2.jpg", none, .areFriends⟩],
          .presences [⟨2, true⟩]] = some list ∧
      getUser (.unmatched "login") list (HandleRepo.numbering.ensure (fbIdToStr 2)) = some c ∧
      c.name = some "Bob" ∧ c.active = true := by
  obtain ⟨list, hlist, -, -, hrecord, -⟩ := contactList_refines (.unmatched "login")
    [.contacts 1 [⟨2, some "Bob", some "http://h/2.jpg", none, .areFriends⟩],
      .presences [⟨2, true⟩]]
    ⟨trivial, by rintro pres hpres; exact .inr (by simp_all; rfl), trivial⟩
  obtain ⟨c, hc, hname, -, -, hactive⟩ :=
    hrecord 2 ⟨2, some "Bob", some "http://h/2.jpg", none, .areFriends⟩ rfl (by decide)
  exact ⟨list, c, hlist, hc, hname, hactive⟩

end ContactList

end TelepathyFacebook
