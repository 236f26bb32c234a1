import TelepathyFacebook.ContactQueries

/-!
# Pushed and queried presence

A client learns the status of a contact from `_get_contact_statuses` and then
follows the statuses that `fb_contact_list_fb_presences_changed` pushes
(`tp/presence.c`).  The query computes a status from the friendship status and the
activity flag; a push looks at the flag alone, and a contact batch, which changes
friendships, pushes nothing.

* `deref_runBatch` and `presencesChanged_effect` say what a batch does to the record
  and to the pushed status of one handle.
* `agrees_iff`: the client holds the queried status all along a run exactly when no
  batch takes a contact in or out of friendship, and presences that change are those
  of friends.
-/

namespace TelepathyFacebook

open Runs ContactList

/-- The status of the record of a contact. -/
def FbContact.status (c : FbContact) : PresenceStatus :=
  if c.fs = .areFriends then .ofActive c.active else .unknown

theorem ofActive_ne_unknown (active : Bool) :
    PresenceStatus.ofActive active ≠ .unknown := by
  cases active <;> decide

theorem FbContact.status_eq_ofActive_iff (c : FbContact) :
    c.status = .ofActive c.active ↔ c.fs = .areFriends := by
  rw [FbContact.status]
  split
  · next h => simp [h]
  · next h => simp [h, (ofActive_ne_unknown _).symm]

/-- With the same activity the status is the same when the friendship is. -/
theorem FbContact.status_eq_iff {c c' : FbContact} (h : c'.active = c.active) :
    c'.status = c.status ↔ (c'.fs = .areFriends ↔ c.fs = .areFriends) := by
  rw [FbContact.status, FbContact.status, h]
  have hne := ofActive_ne_unknown c.active
  by_cases hc : c.fs = .areFriends <;> by_cases hc' : c'.fs = .areFriends <;>
    simp [hc, hc', hne, hne.symm]

namespace ContactList

variable (E : ContactEnv)

/-- The friendship status after a batch: the last that it reports for the record, else
the old one. -/
def reportedFs (myUid : FbId) (ref : Ref) (fs : FbApiFriendshipStatus)
    (users : List FbApiUser) : FbApiFriendshipStatus :=
  users.foldl (fun fs user ↦ if recordRef E myUid user = ref then user.fs else fs) fs

/-- The activity after a batch: the last that it brings for the handle, else the old
one. -/
def reportedActive (handle : TpHandle) (active : Bool) (presences : List FbApiPresence) :
    Bool :=
  presences.foldl
    (fun active pres ↦ if E.ensureHandle pres.uid = handle then pres.active else active) active

variable {E}

theorem contactStatus_of_ne {list : ContactList} {handle : TpHandle}
    (h : handle ≠ E.selfHandle) :
    contactStatus E list handle = (getUser E list handle).map FbContact.status := by
  rw [contactStatus, if_neg h]
  rfl

@[simp] theorem reportedActive_cons (handle : TpHandle) (active : Bool) (pres : FbApiPresence)
    (presences : List FbApiPresence) :
    reportedActive E handle active (pres :: presences) =
      reportedActive E handle
        (if E.ensureHandle pres.uid = handle then pres.active else active) presences := rfl

/-- Presences that repeat the flag leave it. -/
theorem reportedActive_of_forall {handle : TpHandle} {active : Bool}
    {presences : List FbApiPresence}
    (h : ∀ pres ∈ presences, E.ensureHandle pres.uid = handle → pres.active = active) :
    reportedActive E handle active presences = active := by
  induction presences with
  | nil => rfl
  | cons pres presences ih =>
      obtain ⟨hp, hrest⟩ := List.forall_mem_cons.mp h
      rw [reportedActive_cons]
      split
      · next hh => rw [hp hh, ih hrest]
      · exact ih hrest

/-- What a contact batch does to a record that is there: the activity stays. -/
theorem deref_runBatch {list : ContactList} {ref : Ref} {c : FbContact}
    (hc : list.deref ref = some c) (myUid : FbId) (users : List FbApiUser) :
    ∃ c', (runBatch E myUid list users).list.deref ref = some c' ∧ c'.active = c.active ∧
      c'.fs = reportedFs E myUid ref c.fs users := by
  refine List.foldl_rel
    (r := fun (b : Batch) fs ↦
      ∃ c', b.list.deref ref = some c' ∧ c'.active = c.active ∧ c'.fs = fs)
    ⟨c, hc, rfl, rfl⟩ ?_
  rintro user - b fs ⟨c', hc', hactive, hfs⟩
  rw [deref_contactChanged, hc']
  rcases eq_or_ne ref (recordRef E myUid user) with rfl | hne
  · exact ⟨_, if_pos rfl, hactive, (if_pos rfl).symm⟩
  · exact ⟨c', if_neg hne, hactive, by rw [if_neg hne.symm, hfs]⟩

/-- One presence sets the flag of its record. -/
theorem getUser_presenceChanged {s s' : ContactList × StatusTable} {pres : FbApiPresence}
    (h : presenceChanged E s pres = some s') (handle : TpHandle) :
    getUser E s'.1 handle = (getUser E s.1 handle).map fun c ↦
      if E.ensureHandle pres.uid = handle then { c with active := pres.active } else c := by
  obtain ⟨c, hc, -, ⟨hid, hme, htable⟩ | ⟨hid, hme, htable⟩⟩ := presenceChanged_spec h
  · have hself := (E.ensureHandle_eq_selfHandle pres.uid).mpr hid
    rw [hself]
    rcases eq_or_ne E.selfHandle handle with rfl | hne
    · simp [hme]
    · rw [getUser_of_ne E _ hne.symm, getUser_of_ne E _ hne.symm, htable]
      simp [hne]
  · have hself := mt (E.ensureHandle_eq_selfHandle pres.uid).mp hid
    rcases eq_or_ne handle E.selfHandle with rfl | hne
    · simp [hme, hself]
    · rw [getUser_of_ne E _ hne, getUser_of_ne E _ hne, htable]
      rcases eq_or_ne (E.ensureHandle pres.uid) handle with rfl | hh
      · rw [getUser_of_ne E _ hself] at hc
        simp [hc]
      · simp [hh, hh.symm]

/-- One presence pushes a status exactly when the flag of its record changes. -/
theorem lookup_presenceChanged {s s' : ContactList × StatusTable} {pres : FbApiPresence}
    (h : presenceChanged E s pres = some s') {handle : TpHandle} {c : FbContact}
    (hc : getUser E s.1 handle = some c) :
    s'.2.lookup handle =
      if E.ensureHandle pres.uid = handle ∧ c.active ≠ pres.active then
        some (.ofActive pres.active)
      else s.2.lookup handle := by
  have hne : E.ensureHandle pres.uid ≠ 0 := E.repo.ensure_ne_zero _
  simp only [presenceChanged, if_pos hne, getUser_addHandle] at h
  cases hu : getUser E s.1 (E.ensureHandle pres.uid) with
  | none => simp [hu] at h
  | some c' =>
      simp only [hu] at h
      rcases eq_or_ne (E.ensureHandle pres.uid) handle with rfl | hh
      · obtain rfl : c' = c := Option.some.inj (hu.symm.trans hc)
        split at h
        · next hact =>
            obtain rfl := Option.some.inj h
            simp [hact]
        · next hact =>
            obtain rfl := Option.some.inj h
            simp [hact]
      · have hinsert (status : PresenceStatus) :
            (s.2.insert (E.ensureHandle pres.uid) status).lookup handle = s.2.lookup handle :=
          AList.lookup_insert_ne hh.symm
        split at h <;> obtain rfl := Option.some.inj h <;> simp [hh, hinsert]

/-- **What a presence batch does to one handle**: the flag of its record is the last
one, and the status is pushed exactly when some presence differs from the flag before
the batch. -/
theorem presencesChanged_effect {handle : TpHandle} {presences : List FbApiPresence}
    {s s' : ContactList × StatusTable} {c : FbContact}
    (h : presences.foldlM (presenceChanged E) s = some s')
    (hc : getUser E s.1 handle = some c) :
    getUser E s'.1 handle =
        some { c with active := reportedActive E handle c.active presences } ∧
      s'.2.lookup handle =
        if ∀ pres ∈ presences, E.ensureHandle pres.uid = handle → pres.active = c.active then
          s.2.lookup handle
        else some (.ofActive (reportedActive E handle c.active presences)) := by
  induction presences generalizing s c with
  | nil =>
      obtain rfl : s = s' := by simpa using h
      exact ⟨hc, by simp⟩
  | cons pres presences ih =>
      obtain ⟨m, hm, h⟩ := Option.bind_eq_some_iff.mp h
      have hget := getUser_presenceChanged hm handle
      have hpush := lookup_presenceChanged hm hc
      rw [hc, Option.map_some] at hget
      obtain ⟨hrecord, hstatus⟩ := ih h hget
      rcases eq_or_ne (E.ensureHandle pres.uid) handle with rfl | hh
      · simp only [if_true] at hrecord hstatus hpush
        simp only [reportedActive_cons, if_true, List.forall_mem_cons, forall_const]
        refine ⟨hrecord, ?_⟩
        rw [hstatus, hpush]
        by_cases hact : pres.active = c.active
        · simp [hact]
        · -- The first change is pushed, and so is the last.
          simp only [hact, Ne.symm hact, ne_eq, not_false_eq_true, and_self, false_and, if_true,
            if_false]
          split
          · next hall => rw [reportedActive_of_forall hall]
          · rfl
      · simp only [if_neg hh] at hrecord hstatus
        rw [reportedActive_cons, if_neg hh]
        refine ⟨hrecord, ?_⟩
        rw [hstatus, hpush]
        simp [hh]

end ContactList

/-- A client of the presence interface, next to the contact list. -/
structure PresenceClient where
  list : ContactList
  /-- The statuses that the client holds. -/
  held : TpHandle → Option PresenceStatus

/-- What happens to a client and the contact list. -/
inductive PresenceEvent where
  /-- `fb_contact_list_fb_contacts_changed`. -/
  | contacts (myUid : FbId) (users : List FbApiUser)
  /-- `fb_contact_list_fb_presences_changed`. -/
  | presences (presences : List FbApiPresence)
  /-- The client reads statuses with `_get_contact_statuses`. -/
  | read (contacts : List TpHandle)

namespace PresenceClient

variable (E : ContactEnv)

/-- No contact, and a client that has read nothing. -/
def init : PresenceClient := ⟨ContactList.init E, fun _ ↦ none⟩

/-- One event; a crash is `none`.  The client applies what is pushed for the contacts
it has read. -/
def step (s : PresenceClient) : PresenceEvent → Option PresenceClient
  | .contacts myUid users => some { s with list := (contactsChanged E myUid s.list users).1 }
  | .presences presences =>
      (presencesChanged E s.list presences).map fun p ↦
        ⟨p.1, fun handle ↦ (s.held handle).map fun status ↦ (p.2.lookup handle).getD status⟩
  | .read contacts =>
      (getContactStatuses E s.list contacts).map fun table ↦
        { s with held := fun handle ↦ (table.lookup handle).or (s.held handle) }

/-- The client holds what the query would answer. -/
def Agrees (s : PresenceClient) : Prop :=
  ∀ handle status, s.held handle = some status → contactStatus E s.list handle = some status

/-- The condition on an event.  A contact batch leaves a contact that the client has
read a friend or no friend, as it was; a presence that changes is that of a friend, or
leaves the account itself active. -/
def Steady (s : PresenceClient) : PresenceEvent → Prop
  | .contacts myUid users => ∀ handle c, (s.held handle).isSome → handle ≠ E.selfHandle →
      getUser E s.list handle = some c →
        (reportedFs E myUid (.entry handle) c.fs users = .areFriends ↔ c.fs = .areFriends)
  | .presences presences => ∀ handle c, (s.held handle).isSome →
      getUser E s.list handle = some c →
        (∀ pres ∈ presences, E.ensureHandle pres.uid = handle → pres.active = c.active) ∨
          if handle = E.selfHandle then reportedActive E handle c.active presences = true
          else c.fs = .areFriends
  | .read _ => True

variable {E}

theorem agrees_init : Agrees E (init E) := fun _ _ h ↦ by cases h

/-- A status that was read is the one of the query. -/
theorem contactStatus_of_getContactStatuses {list : ContactList} {contacts : List TpHandle}
    {table : StatusTable} (ht : getContactStatuses E list contacts = some table)
    {handle : TpHandle} {status : PresenceStatus} (h : table.lookup handle = some status) :
    contactStatus E list handle = some status := by
  have hinv := foldlM_invariant
    (P := fun table : StatusTable ↦
      ∀ handle status, table.lookup handle = some status →
        contactStatus E list handle = some status)
    (f := insertStatus E list) ?_ (fun _ _ hc ↦ by cases hc) ht
  · exact hinv handle status h
  · intro table new table' hP hnew handle status hlookup
    rw [insertStatus] at hnew
    split at hnew
    · obtain ⟨status', hstatus, rfl⟩ := Option.map_eq_some_iff.mp hnew
      rcases eq_or_ne handle new with rfl | hne
      · rw [AList.lookup_insert] at hlookup
        rw [hstatus, hlookup]
      · rw [AList.lookup_insert_ne hne] at hlookup
        exact hP handle status hlookup
    · cases hnew

/-- Reading keeps the client up to date. -/
theorem Agrees.read {s : PresenceClient} (h : Agrees E s) {contacts : List TpHandle}
    {table : StatusTable} (ht : getContactStatuses E s.list contacts = some table) :
    Agrees E { s with held := fun handle ↦ (table.lookup handle).or (s.held handle) } := by
  intro handle status hheld
  rcases Option.or_eq_some_iff.mp hheld with hread | ⟨-, hold⟩
  · exact contactStatus_of_getContactStatuses ht hread
  · exact h handle status hold

/-- A contact batch keeps the client up to date exactly when it is steady. -/
theorem agrees_contacts_iff {s : PresenceClient} (h : Agrees E s) (myUid : FbId)
    (users : List FbApiUser) :
    Agrees E { s with list := (contactsChanged E myUid s.list users).1 } ↔
      Steady E s (.contacts myUid users) := by
  have hone {handle : TpHandle} {status : PresenceStatus} {c : FbContact}
      (hheld : s.held handle = some status) (hne : handle ≠ E.selfHandle)
      (hc : getUser E s.list handle = some c) :
      contactStatus E (contactsChanged E myUid s.list users).1 handle = some status ↔
        (reportedFs E myUid (.entry handle) c.fs users = .areFriends ↔
          c.fs = .areFriends) := by
    rw [getUser_of_ne E _ hne] at hc
    obtain ⟨c', hc', hactive, hfs⟩ :=
      deref_runBatch (E := E) (show s.list.deref (.entry handle) = some c from hc) myUid users
    have hstatus := h handle status hheld
    rw [contactStatus_of_ne hne, getUser_of_ne E _ hne, hc, Option.map_some,
      Option.some.injEq] at hstatus
    rw [← hfs, ← FbContact.status_eq_iff hactive, contactStatus_of_ne hne,
      getUser_of_ne E _ hne, ← hstatus]
    exact (congrArg (Option.map _ · = _) hc').to_iff.trans Option.some_inj
  constructor
  · intro h' handle c hheld hne hc
    obtain ⟨status, hheld⟩ := Option.isSome_iff_exists.mp hheld
    exact (hone hheld hne hc).mp (h' handle status hheld)
  · intro hsteady handle status hheld
    have hstatus := h handle status hheld
    rcases eq_or_ne handle E.selfHandle with rfl | hne
    · rw [← hstatus, contactStatus, contactStatus, if_pos rfl, if_pos rfl]
    · rw [contactStatus_of_ne hne] at hstatus
      obtain ⟨c, hc, -⟩ := Option.map_eq_some_iff.mp hstatus
      exact (hone hheld hne hc).mpr (hsteady handle c (by rw [hheld]; rfl) hne hc)

/-- A presence batch keeps the client up to date exactly when it is steady. -/
theorem agrees_presences_iff {s : PresenceClient} (h : Agrees E s)
    {presences : List FbApiPresence} {p : ContactList × StatusTable}
    (hp : presencesChanged E s.list presences = some p) :
    Agrees E
        ⟨p.1, fun handle ↦ (s.held handle).map fun status ↦ (p.2.lookup handle).getD status⟩ ↔
      Steady E s (.presences presences) := by
  have hone {handle : TpHandle} {status : PresenceStatus} {c : FbContact}
      (hheld : s.held handle = some status) (hc : getUser E s.list handle = some c) :
      contactStatus E p.1 handle = some ((p.2.lookup handle).getD status) ↔
        (∀ pres ∈ presences, E.ensureHandle pres.uid = handle → pres.active = c.active) ∨
          if handle = E.selfHandle then reportedActive E handle c.active presences = true
          else c.fs = .areFriends := by
    obtain ⟨hrecord, hpush⟩ := presencesChanged_effect hp hc
    have hstatus := h handle status hheld
    rw [hpush]
    by_cases hall : ∀ pres ∈ presences,
        E.ensureHandle pres.uid = handle → pres.active = c.active
    · rw [reportedActive_of_forall hall] at hrecord
      rw [if_pos hall, iff_true_right (.inl hall), contactStatus, hrecord, ← hc]
      exact hstatus
    · rw [if_neg hall, or_iff_right hall, Option.getD_some]
      rcases eq_or_ne handle E.selfHandle with rfl | hne
      · rw [contactStatus, if_pos rfl, if_pos rfl]
        cases reportedActive E E.selfHandle c.active presences <;> simp [PresenceStatus.ofActive]
      · rw [contactStatus_of_ne hne, if_neg hne, hrecord, Option.map_some, Option.some.injEq]
        exact FbContact.status_eq_ofActive_iff _
  constructor
  · intro h' handle c hheld hc
    obtain ⟨status, hheld⟩ := Option.isSome_iff_exists.mp hheld
    refine (hone hheld hc).mp (h' handle _ ?_)
    simp [hheld]
  · intro hsteady handle status' hheld'
    obtain ⟨status, hheld, rfl⟩ := Option.map_eq_some_iff.mp hheld'
    obtain ⟨c, hc⟩ := Option.isSome_iff_exists.mp
      ((isSome_contactStatus s.list handle).mp (by rw [h handle status hheld]; rfl))
    exact (hone hheld hc).mpr (hsteady handle c (by rw [hheld]; rfl) hc)

/-- **One event** keeps the client up to date exactly when it is steady. -/
theorem agrees_step_iff {s s' : PresenceClient} (h : Agrees E s) {e : PresenceEvent}
    (hs : step E s e = some s') : Agrees E s' ↔ Steady E s e := by
  cases e with
  | contacts myUid users =>
      obtain rfl := Option.some.inj hs
      exact agrees_contacts_iff h myUid users
  | presences presences =>
      obtain ⟨p, hp, rfl⟩ := Option.map_eq_some_iff.mp hs
      exact agrees_presences_iff h hp
  | read contacts =>
      obtain ⟨table, ht, rfl⟩ := Option.map_eq_some_iff.mp hs
      exact iff_of_true (h.read ht) trivial

/-- **When pushed and queried presence agree.**  In every state of a run, up to a
crash, the client holds for every contact it has read the status that
`_get_contact_statuses` would answer, if and only if every event is steady. -/
theorem agrees_iff (es : List PresenceEvent) :
    Always (crashing (step E)) (fun t ↦ ∀ s ∈ t, Agrees E s) (some (init E)) es ↔
      Steps (crashing (step E)) (fun t e ↦ ∀ s ∈ t, (step E s e).isSome → Steady E s e)
        (some (init E)) es := by
  refine always_iff (P := fun _ ↦ True) (fun _ _ _ ↦ trivial) ?_ trivial ?_ es
  · intro t e _ ht
    cases t with
    | none => simp
    | some s =>
        cases hs : step E s e with
        | none => simp [hs]
        | some s' => simpa [hs] using agrees_step_iff (ht s rfl) hs
  · rintro s ⟨⟩
    exact agrees_init

/-- A friend is read and then unfriended: the client goes on holding "away". -/
theorem unfriended_not_pushed :
    ¬ Always (crashing (step (.unmatched "login")))
      (fun t ↦ ∀ s ∈ t, Agrees (.unmatched "login") s)
      (some (init (.unmatched "login")))
      [.contacts 1 [⟨2, some "Bob", some "http://h/2.jpg", none, .areFriends⟩],
        .read [HandleRepo.numbering.ensure "2"],
        .contacts 1 [⟨2, some "Bob", some "http://h/2.jpg", none, .notFriends⟩]] := by
  intro h
  have haway := h.last _ rfl (HandleRepo.numbering.ensure "2") .away rfl
  revert haway
  decide

end PresenceClient

end TelepathyFacebook
