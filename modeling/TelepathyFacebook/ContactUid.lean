import TelepathyFacebook.ContactQueries
import TelepathyFacebook.Roster

/-!
# The uid of a record

The alias of a record without a name is the text of its `uid`, and `avatar_cb`
addresses its signal to the handle of that `uid`.  A report does not set the field.

* `UidUnset` is what does hold: the field is 0 in every record, in every reachable
  state.
* `uidKept_iff`: the field is the uid of the user, in every state of a run, exactly
  when the run reports no other uid than 0.
-/

namespace TelepathyFacebook

open Runs

/-- The users that an event reports. -/
def RosterEvent.users : RosterEvent → List FbApiUser
  | .contacts _ users => users
  | .presences _ => []

namespace Roster

/-! ## The uids of a roster -/

/-- Every user of the roster has the uid 0. -/
structure UidsZero (r : Roster) : Prop where
  own : ∀ user, r.own = some user → user.uid = 0
  report : ∀ uid user, r.report uid = some user → user.uid = 0

/-- The roster has a report of the uid, where a batch with `myUid` files it. -/
def Has (r : Roster) (myUid uid : FbId) : Prop :=
  if uid = myUid then ∃ user, r.own = some user ∧ user.uid = uid
  else ∃ user, r.report uid = some user ∧ user.uid = uid

theorem UidsZero.eq_zero {r : Roster} (h : r.UidsZero) {myUid uid : FbId}
    (hr : r.Has myUid uid) : uid = 0 := by
  unfold Has at hr
  split at hr
  · obtain ⟨user, hu, rfl⟩ := hr
    exact h.own user hu
  · obtain ⟨user, hu, rfl⟩ := hr
    exact h.report _ user hu

theorem has_reportUser (r : Roster) (myUid : FbId) (user : FbApiUser) :
    (r.reportUser myUid user).Has myUid user.uid := by
  rw [Has, reportUser]
  by_cases h : user.uid = myUid <;> simp [h]

theorem Has.reportUser {r : Roster} {myUid uid : FbId} (h : r.Has myUid uid)
    (user : FbApiUser) : (r.reportUser myUid user).Has myUid uid := by
  by_cases heq : uid = user.uid
  · rw [heq]
    exact has_reportUser r myUid user
  rw [Has] at h ⊢
  split at h
  · next hm =>
      rw [if_pos hm, reportUser_other r (fun hc ↦ heq (hm.trans hc.symm))]
      exact h
  · next hm =>
      rw [if_neg hm]
      by_cases hu : user.uid = myUid
      · rw [reportUser_own r hu]
        exact h
      · rw [reportUser_other r hu]
        simpa [heq] using h

/-- A batch files the uids of all its users. -/
theorem has_foldl_reportUser (r : Roster) (myUid : FbId) {users : List FbApiUser} {uid : FbId}
    (h : r.Has myUid uid ∨ ∃ user ∈ users, user.uid = uid) :
    (users.foldl (reportUser myUid) r).Has myUid uid := by
  induction users generalizing r with
  | nil => simpa using h
  | cons user users ih =>
      apply ih
      rw [List.exists_mem_cons_iff] at h
      rcases h with h | rfl | h
      · exact .inl (h.reportUser user)
      · exact .inl (has_reportUser r myUid user)
      · exact .inr h

theorem UidsZero.reportUser {r : Roster} (h : r.UidsZero) (myUid : FbId) {user : FbApiUser}
    (hu : user.uid = 0) : (r.reportUser myUid user).UidsZero := by
  by_cases hm : user.uid = myUid
  · rw [reportUser_own r hm]
    refine ⟨fun user' hu' ↦ ?_, h.report⟩
    obtain rfl : user = user' := by simpa using hu'
    exact hu
  · rw [reportUser_other r hm]
    refine ⟨h.own, fun uid user' hu' ↦ ?_⟩
    by_cases heq : uid = user.uid
    · obtain rfl : user = user' := by simpa [heq] using hu'
      exact hu
    · exact h.report uid user' (by simpa [heq] using hu')

/-- A batch keeps the roster at uid 0 exactly when it reports no other uid. -/
theorem UidsZero.foldl_reportUser_iff {r : Roster} (h : r.UidsZero) (myUid : FbId)
    (users : List FbApiUser) :
    (users.foldl (Roster.reportUser myUid) r).UidsZero ↔ ∀ user ∈ users, user.uid = 0 := by
  constructor
  · intro hz user hu
    exact hz.eq_zero (has_foldl_reportUser r myUid (.inr ⟨user, hu, rfl⟩))
  · intro hall
    induction users generalizing r with
    | nil => exact h
    | cons user users ih =>
        rw [List.forall_mem_cons] at hall
        exact ih (h.reportUser myUid hall.1) hall.2

theorem UidsZero.foldl_setActive {r : Roster} (h : r.UidsZero)
    (presences : List FbApiPresence) : (presences.foldl setActive r).UidsZero :=
  foldl_invariant (fun _ _ hr ↦ ⟨hr.own, hr.report⟩) h presences

end Roster

namespace ContactList

variable {E : ContactEnv}

/-! ## The field is never set -/

/-- Every record has the uid 0. -/
structure UidUnset (list : ContactList) : Prop where
  me : list.me.uid = 0
  entry : ∀ handle c, list.fbContacts.lookup handle = some c → c.uid = 0

theorem uidUnset_init : UidUnset (init E) := by
  refine ⟨rfl, fun handle c hc ↦ ?_⟩
  simp [init] at hc

theorem UidUnset.deref {list : ContactList} (h : UidUnset list) {ref : Ref} {c : FbContact}
    (hc : list.deref ref = some c) : c.uid = 0 := by
  cases ref with
  | me =>
      obtain rfl := Option.some.inj hc
      exact h.me
  | entry handle => exact h.entry handle c hc

theorem UidUnset.getUser {list : ContactList} (h : UidUnset list) {handle : TpHandle}
    {c : FbContact} (hc : getUser E list handle = some c) : c.uid = 0 :=
  h.deref hc

theorem UidUnset.contactChanged {myUid : FbId} {b : Batch} (h : UidUnset b.list)
    (user : FbApiUser) : UidUnset (contactChanged E myUid b user).list := by
  by_cases hu : user.uid = myUid
  · rw [contactChanged_own b hu]
    exact ⟨h.me, h.entry⟩
  · refine ⟨by rw [contactChanged_me b hu]; exact h.me, fun handle c hc ↦ ?_⟩
    by_cases hh : handle = E.ensureHandle user.uid
    · rw [hh, lookup_contactChanged_self b hu] at hc
      obtain rfl := Option.some.inj hc
      -- A new record starts at 0, and an old one has kept it.
      cases hold : b.list.fbContacts.lookup (E.ensureHandle user.uid) with
      | none => rfl
      | some old => exact h.entry _ old hold
    · rw [lookup_contactChanged_of_ne b (.inr hh)] at hc
      exact h.entry handle c hc

theorem UidUnset.runBatch {list : ContactList} (h : UidUnset list) (myUid : FbId)
    (users : List FbApiUser) : UidUnset (runBatch E myUid list users).list :=
  foldl_invariant (P := fun b : Batch ↦ UidUnset b.list) (fun _ user hb ↦ hb.contactChanged user)
    h users

theorem UidUnset.presenceChanged {s s' : ContactList × StatusTable} (h : UidUnset s.1)
    {pres : FbApiPresence} (hs : presenceChanged E s pres = some s') : UidUnset s'.1 := by
  obtain ⟨c, hc, -, ⟨-, hme, htable⟩ | ⟨-, hme, htable⟩⟩ := presenceChanged_spec hs
  · refine ⟨?_, ?_⟩
    · rw [hme]
      exact h.me
    · rw [htable]
      exact h.entry
  · refine ⟨by rw [hme]; exact h.me, fun handle c' hc' ↦ ?_⟩
    rw [htable] at hc'
    split at hc'
    · obtain rfl := Option.some.inj hc'
      show c.uid = 0
      exact h.getUser hc
    · exact h.entry handle c' hc'

theorem UidUnset.presencesChanged {list : ContactList} (h : UidUnset list)
    {presences : List FbApiPresence} {s' : ContactList × StatusTable}
    (hs : presencesChanged E list presences = some s') : UidUnset s'.1 :=
  foldlM_invariant (P := fun s ↦ UidUnset s.1) (fun _ _ _ hb hp ↦ hb.presenceChanged hp) h hs

/-- No call sets the field. -/
theorem UidUnset.call {list list' : ContactList} (h : UidUnset list) {e : ContactsCall}
    (he : call E list e = some list') : UidUnset list' := by
  have hquery {α : Type} {contacts : List TpHandle} {answer : Option α}
      (hq : list.query contacts answer = some list') : UidUnset list' := by
    rw [query] at hq
    split at hq
    · obtain ⟨-, -, rfl⟩ := Option.map_eq_some_iff.mp hq
      exact h
    · obtain rfl := Option.some.inj hq
      exact h
  cases e with
  | ensure id =>
      obtain rfl := Option.some.inj he
      exact ⟨h.me, h.entry⟩
  | contacts myUid users =>
      obtain rfl := Option.some.inj he
      exact h.runBatch myUid users
  | presences presences =>
      obtain ⟨s, hs, rfl⟩ := Option.map_eq_some_iff.mp he
      exact h.presencesChanged hs
  | aliases contacts => exact hquery he
  | avatarTokens contacts => exact hquery he
  | statuses contacts => exact hquery he
  | requestAvatars connected contacts =>
      obtain ⟨-, -, rfl⟩ := Option.map_eq_some_iff.mp he
      exact h

/-- In the list that a run of calls leads to, the field is 0. -/
theorem uidUnset_of_calls {calls : List ContactsCall} {list : ContactList}
    (h : calls.foldl (crashing (call E)) (some (init E)) = some list) : UidUnset list := by
  exact foldl_crashing_invariant (fun _ _ _ hl he ↦ hl.call he) uidUnset_init calls list h

/-! ## What the readers of the field rely on -/

/-- The record holds the uid of the user, so that its alias is the name or the text
of that uid. -/
structure HoldsUid (c : FbContact) (user : FbApiUser) : Prop where
  uid : c.uid = user.uid
  alias_eq : c.alias = user.name.getD (fbIdToStr user.uid)

/-- Every record holds the uid of the user it was last filled from, and the uid of a
record of the table leads back to its handle. -/
structure UidKept (E : ContactEnv) (s : ContactList × Roster) : Prop where
  own : ∀ user, s.2.own = some user → HoldsUid s.1.me user
  others : ∀ uid user, s.2.report uid = some user →
    ∃ c, s.1.fbContacts.lookup (E.ensureHandle uid) = some c ∧ HoldsUid c user ∧
      E.ensureHandle c.uid = E.ensureHandle uid

theorem holdsUid_of_zero {c : FbContact} {user : FbApiUser} (h : FilledFrom c user)
    (hc : c.uid = 0) (hu : user.uid = 0) : HoldsUid c user :=
  ⟨hc.trans hu.symm, by rw [FbContact.alias, h.name, hc, hu]⟩

/-- Since the field is never set, it is right exactly where the uid is 0. -/
theorem uidKept_iff_uidsZero {s : ContactList × Roster} (hr : Represents E s.1 s.2)
    (h : UidUnset s.1) : UidKept E s ↔ s.2.UidsZero := by
  constructor
  · intro hk
    refine ⟨fun user hu ↦ ?_, fun uid user hu ↦ ?_⟩
    · rw [← (hk.own user hu).uid, h.me]
    · obtain ⟨c, hc, hholds, -⟩ := hk.others uid user hu
      rw [← hholds.uid, h.entry _ c hc]
  · intro hz
    refine ⟨fun user hu ↦ holdsUid_of_zero (hr.own user hu) h.me (hz.own user hu),
      fun uid user hu ↦ ?_⟩
    obtain ⟨c, hc, hfilled⟩ := hr.record uid user hu
    have hczero := h.entry _ c hc
    have huzero := hz.report uid user hu
    refine ⟨c, hc, holdsUid_of_zero hfilled hczero huzero, ?_⟩
    rw [hczero, ← huzero, hr.filed uid user hu]

/-! ## Runs -/

variable (E)

/-- One event on the contact list, and on the roster of what was reported. -/
def track (s : ContactList × Roster) (e : RosterEvent) : Option (ContactList × Roster) :=
  (event E s.1 e).map fun p ↦ (p.1, (Roster.step E s.2 e).1)

/-- What holds in every state of every run. -/
structure Tracked (s : ContactList × Roster) : Prop where
  represents : Represents E s.1 s.2
  uidUnset : UidUnset s.1

variable {E}

theorem tracked_init : Tracked E (init E, Roster.init) := ⟨represents_init, uidUnset_init⟩

theorem Tracked.track {s s' : ContactList × Roster} (h : Tracked E s) {e : RosterEvent}
    (hs : track E s e = some s') : Tracked E s' := by
  cases e with
  | contacts myUid users =>
      obtain rfl := Option.some.inj hs
      exact ⟨h.represents.runBatch myUid users, h.uidUnset.runBatch myUid users⟩
  | presences presences =>
      obtain ⟨p, hp, rfl⟩ := Option.map_eq_some_iff.mp hs
      obtain ⟨q, hq, rfl⟩ := Option.map_eq_some_iff.mp hp
      exact ⟨h.represents.presencesChanged hq, h.uidUnset.presencesChanged hq⟩

/-- An event keeps the uids right exactly when it reports no uid but 0. -/
theorem uidKept_track_iff {s : ContactList × Roster} (h : Tracked E s) (hk : UidKept E s)
    (e : RosterEvent) :
    (∀ s' ∈ track E s e, UidKept E s') ↔ ∀ user ∈ e.users, user.uid = 0 := by
  have hz := (uidKept_iff_uidsZero h.represents h.uidUnset).mp hk
  cases e with
  | contacts myUid users =>
      have hs : track E s (.contacts myUid users) = some
          ((contactsChanged E myUid s.1 users).1,
            users.foldl (Roster.reportUser myUid) s.2) := rfl
      have h' := h.track hs
      rw [hs, RosterEvent.users, ← hz.foldl_reportUser_iff myUid users,
        ← uidKept_iff_uidsZero h'.represents h'.uidUnset]
      simp
  | presences presences =>
      refine ⟨fun _ user hu ↦ (List.not_mem_nil hu).elim, fun _ s' hs ↦ ?_⟩
      have h' := h.track hs
      rw [uidKept_iff_uidsZero h'.represents h'.uidUnset]
      obtain ⟨p, hp, rfl⟩ := Option.map_eq_some_iff.mp hs
      exact hz.foldl_setActive presences

/-- **When the records hold the uids of their users.**  In every state of a run, up
to a crash, every record holds the uid of the user it was filled from, if and only
if every user that the run reports has the uid 0. -/
theorem uidKept_iff (es : List RosterEvent) :
    Always (crashing (track E)) (fun t ↦ ∀ s ∈ t, UidKept E s) (some (init E, Roster.init)) es ↔
      Steps (crashing (track E)) (fun t e ↦ t.isSome → ∀ user ∈ e.users, user.uid = 0)
        (some (init E, Roster.init)) es := by
  refine always_iff (P := fun t ↦ ∀ s ∈ t, Tracked E s) ?_ ?_ ?_ ?_ es
  · exact fun t e ht ↦ forall_mem_crashing fun s hs s' hs' ↦ (ht s hs).track hs'
  · intro t e ht hk
    cases t with
    | none => simp
    | some s => simpa using uidKept_track_iff (ht s rfl) (hk s rfl) e
  · rintro s ⟨⟩
    exact tracked_init
  · rintro s ⟨⟩
    exact ⟨fun user hu ↦ (by cases hu), fun uid user hu ↦ (by cases hu)⟩

/-- A first contact, with the uid 2: its record holds another one. -/
theorem uid_not_kept :
    ¬ Always (crashing (track (.unmatched "login")))
      (fun t ↦ ∀ s ∈ t, UidKept (.unmatched "login") s)
      (some (init (.unmatched "login"), Roster.init))
      [.contacts 1 [⟨2, none, some "http://h/2.jpg", none, .areFriends⟩]] := by
  intro h
  obtain ⟨c, hc, hholds, -⟩ :=
    (h.last _ rfl).others 2 ⟨2, none, some "http://h/2.jpg", none, .areFriends⟩ rfl
  have huid : c.uid = 0 := (uidUnset_init.runBatch 1 _).entry _ c hc
  rw [hholds.uid] at huid
  revert huid
  decide

end ContactList

end TelepathyFacebook
