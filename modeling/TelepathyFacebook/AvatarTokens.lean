import TelepathyFacebook.ContactQueries
import TelepathyFacebook.Identity

/-!
# Avatar tokens

A client reads the avatar token of a contact as an attribute
(`fb_connection_avatars_fill_contact_attributes`) and then follows the `AvatarUpdated`
signals of `fb_contact_list_fb_contacts_changed`.  A signal is emitted when a record
that has a token gets another one, NULL included, and never for the first token of a
record.

* `updated_contactChanged` and `recordToken_contactChanged` say what one report does to
  the signals and to the tokens.
* `tracks_of_steady`: if all reports have icons, and tokens neither appear for a contact that
  was read nor disappear, the client knows the queried token all along, and every signal is in
  order.
-/

namespace TelepathyFacebook

open Runs

namespace ContactList

variable (E : ContactEnv)

/-- The token of a record, NULL where there is no record. -/
def recordToken (list : ContactList) (ref : Ref) : Option String :=
  (list.deref ref).bind FbContact.avatarToken

/-- The tokens of the records after a report. -/
def reportToken (myUid : FbId) (tokens : Ref → Option String) (user : FbApiUser) :
    Ref → Option String :=
  Function.update tokens (recordRef E myUid user) (getAvatarToken E user)

/-- The avatar-token attribute of a contact; a crash is `none`. -/
def avatarTokenAttribute (list : ContactList) (handle : TpHandle) : Option (Option String) :=
  (avatarsFillContactAttributes E list [handle] ∅).map fun attributes ↦
    attributes.lookup (handle, .avatarToken)

/-- The signals of one round of a contact batch are in order: they are for the contact
that is reported, and carry its token, which is there and was another one before. -/
def WellSignalled (myUid : FbId) (b : Batch) (user : FbApiUser) : Prop :=
  ∀ signal ∈ (contactChanged E myUid b user).updated.drop b.updated.length,
    signal.1 = contactHandle E myUid user.uid ∧ signal.2.isSome ∧
      signal.2 = getAvatarToken E user ∧ signal.2 ≠ recordToken b.list (recordRef E myUid user)

variable {E} {myUid : FbId}

theorem avatarTokenAttribute_eq (list : ContactList) (handle : TpHandle) :
    avatarTokenAttribute E list handle = (getUser E list handle).map FbContact.avatarToken := by
  rw [avatarTokenAttribute, avatarsFillContactAttributes]
  cases hc : getUser E list handle with
  | none => simp [fillAvatarToken, hc]
  | some c =>
      cases htoken : c.avatarToken with
      | none => simp [fillAvatarToken, hc, htoken]
      | some token =>
          have hlookup : (AList.insert (handle, ContactAttribute.avatarToken) token
              (∅ : Attributes)).lookup (handle, .avatarToken) = some token :=
            AList.lookup_insert _
          simpa [fillAvatarToken, hc, htoken] using hlookup

/-- A handle leads to the record of a report when it is the handle of the contact, unless
that record is one which the self handle hides. -/
theorem userRef_eq_recordRef_iff {user : FbApiUser} {handle : TpHandle} :
    userRef E handle = recordRef E myUid user ↔
      handle = contactHandle E myUid user.uid ∧ recordRef E myUid user ≠ .entry E.selfHandle := by
  rw [userRef, recordRef, contactHandle]
  by_cases hu : user.uid = myUid
  · simp [hu]
  · simp only [hu, if_false, ne_eq, Ref.entry.injEq]
    split
    · next hself =>
        simp only [reduceCtorEq, hself, false_iff, not_and, not_not]
        exact Eq.symm
    · next hself =>
        rw [Ref.entry.injEq, iff_self_and]
        rintro rfl
        exact hself

/-- What one report signals. -/
theorem updated_contactChanged (b : Batch) (user : FbApiUser) :
    (contactChanged E myUid b user).updated = b.updated ++
      (if (recordToken b.list (recordRef E myUid user)).isSome ∧
          getAvatarToken E user ≠ recordToken b.list (recordRef E myUid user) then
        [(contactHandle E myUid user.uid, getAvatarToken E user)]
      else []) := by
  by_cases hu : user.uid = myUid
  · simp [contactChanged, avatarUpdated, recordToken, recordRef, contactHandle, deref, hu]
  · have hdefault (c : Option FbContact) :
        (c.getD {}).avatarToken = c.bind FbContact.avatarToken := by
      cases c <;> rfl
    simp [contactChanged, avatarUpdated, recordToken, recordRef, contactHandle, deref, hu,
      addHandle, hdefault]

/-- What one report does to the tokens. -/
theorem recordToken_contactChanged (b : Batch) (user : FbApiUser) :
    recordToken (contactChanged E myUid b user).list =
      reportToken E myUid (recordToken b.list) user := by
  funext ref
  rw [recordToken, deref_contactChanged, reportToken]
  rcases eq_or_ne ref (recordRef E myUid user) with rfl | hne
  · rw [if_pos rfl, Function.update_self]
    rfl
  · rw [if_neg hne, Function.update_of_ne hne]
    rfl

/-- A signal is in order unless the token disappears. -/
theorem wellSignalled_of_stays {b : Batch} {user : FbApiUser}
    (h : (recordToken b.list (recordRef E myUid user)).isSome → (getAvatarToken E user).isSome) :
    WellSignalled E myUid b user := by
  intro signal hsignal
  rw [updated_contactChanged, List.drop_left] at hsignal
  split at hsignal
  · next hold =>
      obtain rfl := List.mem_singleton.mp hsignal
      exact ⟨rfl, h hold.1, rfl, hold.2⟩
  · cases hsignal

end ContactList

/-- A client of the avatars interface, next to the contact list. -/
structure AvatarClient where
  list : ContactList
  /-- The tokens of the contacts that the client has read, NULL for an absent one. -/
  known : TpHandle → Option (Option String)

/-- What happens to the client and the contact list. -/
inductive AvatarClientEvent where
  /-- `fb_contact_list_fb_contacts_changed`. -/
  | contacts (myUid : FbId) (users : List FbApiUser)
  /-- The client reads the avatar-token attribute of a contact. -/
  | read (handle : TpHandle)

namespace AvatarClient

open ContactList

/-- A client applies an `AvatarUpdated` signal for a contact that it has read. -/
def applyUpdated (known : TpHandle → Option (Option String))
    (signal : TpHandle × Option String) : TpHandle → Option (Option String) :=
  Function.update known signal.1 ((known signal.1).map fun _ ↦ signal.2)

variable (E : ContactEnv)

/-- No contact, and a client that has read nothing. -/
def init : AvatarClient := ⟨ContactList.init E, fun _ ↦ none⟩

/-- One event; a crash is `none`. -/
def step (s : AvatarClient) : AvatarClientEvent → Option AvatarClient
  | .contacts myUid users =>
      let b := runBatch E myUid s.list users
      some ⟨b.list, b.updated.foldl applyUpdated s.known⟩
  | .read handle =>
      (avatarTokenAttribute E s.list handle).map fun token ↦
        { s with known := Function.update s.known handle (some token) }

/-- The client knows, of every contact it has read, the token that the attribute query
would return. -/
def Tracks (s : AvatarClient) : Prop :=
  ∀ handle token, s.known handle = some token →
    avatarTokenAttribute E s.list handle = some token

/-- The condition on a report, given the tokens of the records before it. -/
structure KeepsToken (myUid : FbId) (known : TpHandle → Option (Option String))
    (tokens : Ref → Option String) (user : FbApiUser) : Prop where
  /-- There is an icon, so that `get_avatar_token` returns. -/
  icon : user.icon.isSome
  /-- The token of a record does not disappear. -/
  stays : (tokens (recordRef E myUid user)).isSome → (getAvatarToken E user).isSome
  /-- A contact that the client has read gets no first token. -/
  appears : ∀ handle, (known handle).isSome → userRef E handle = recordRef E myUid user →
    tokens (recordRef E myUid user) = none → getAvatarToken E user = none
  /-- A user other than the account's own that is filed under the self handle keeps its
  token, if the client follows the self handle. -/
  hidden : recordRef E myUid user = .entry E.selfHandle → (known E.selfHandle).isSome →
    (tokens (recordRef E myUid user)).isSome →
      getAvatarToken E user = tokens (recordRef E myUid user)

/-- The condition on an event: all reports of a batch keep the tokens, each given those
that the reports before it left. -/
def Steady (s : AvatarClient) : AvatarClientEvent → Prop
  | .contacts myUid users =>
      Steps (reportToken E myUid) (KeepsToken E myUid s.known) (recordToken s.list) users
  | .read _ => True

/-- The signals of an event are in order. -/
def Signalled (s : AvatarClient) : AvatarClientEvent → Prop
  | .contacts myUid users =>
      Steps (contactChanged E myUid) (WellSignalled E myUid) ⟨s.list, ∅, []⟩ users
  | .read _ => True

variable {E} {myUid : FbId}

/-- Signals are applied to contacts that were read, and make no other known. -/
theorem isSome_foldl_applyUpdated (known : TpHandle → Option (Option String))
    (updated : List (TpHandle × Option String)) (handle : TpHandle) :
    (updated.foldl applyUpdated known handle).isSome ↔ (known handle).isSome := by
  refine foldl_invariant (P := fun known' : TpHandle → Option (Option String) ↦
    ((known' handle).isSome ↔ (known handle).isSome)) (fun known' signal h ↦ ?_) Iff.rfl updated
  rw [← h, applyUpdated]
  rcases eq_or_ne handle signal.1 with rfl | hne
  · rw [Function.update_self, Option.isSome_map]
  · rw [Function.update_of_ne hne]

/-- The attribute of a contact after a report. -/
theorem avatarTokenAttribute_contactChanged {b : Batch} {user : FbApiUser} {handle : TpHandle}
    {token : Option String} (h : avatarTokenAttribute E b.list handle = some token) :
    avatarTokenAttribute E (contactChanged E myUid b user).list handle =
      some (if userRef E handle = recordRef E myUid user then getAvatarToken E user
        else token) := by
  rw [avatarTokenAttribute_eq, getUser] at h ⊢
  rw [deref_contactChanged]
  split
  · rfl
  · exact h

/-- **One report** that keeps the token keeps the client up to date. -/
theorem tracks_contactChanged {b : Batch} {user : FbApiUser}
    {known : TpHandle → Option (Option String)}
    (h : Tracks E ⟨b.list, b.updated.foldl applyUpdated known⟩)
    (hkeeps : KeepsToken E myUid known (recordToken b.list) user) :
    Tracks E ⟨(contactChanged E myUid b user).list,
      (contactChanged E myUid b user).updated.foldl applyUpdated known⟩ := by
  intro handle token' htoken'
  dsimp only at htoken' ⊢
  have hread : (known handle).isSome := by
    rw [← isSome_foldl_applyUpdated known (contactChanged E myUid b user).updated, htoken']
    rfl
  obtain ⟨token, htoken⟩ := Option.isSome_iff_exists.mp
    ((isSome_foldl_applyUpdated known b.updated handle).mpr hread)
  have hquery : avatarTokenAttribute E b.list handle = some token := h handle token htoken
  rw [avatarTokenAttribute_contactChanged hquery, Option.some.injEq]
  have hrecord (hr : userRef E handle = recordRef E myUid user) :
      recordToken b.list (recordRef E myUid user) = token := by
    rw [avatarTokenAttribute_eq, getUser, hr] at hquery
    obtain ⟨c, hc, rfl⟩ := Option.map_eq_some_iff.mp hquery
    rw [recordToken, hc, Option.bind_some]
  rw [updated_contactChanged, List.foldl_append] at htoken'
  split at htoken'
  · next hold =>
      -- The token changes, and the signal says so.
      rw [List.foldl_cons, List.foldl_nil, applyUpdated] at htoken'
      dsimp only at htoken'
      rcases eq_or_ne handle (contactHandle E myUid user.uid) with hh | hh
      · rw [← hh, Function.update_self, htoken, Option.map_some, Option.some.injEq] at htoken'
        rw [if_pos, htoken']
        refine userRef_eq_recordRef_iff.mpr ⟨hh, fun hself ↦ ?_⟩
        have hhandle : handle = E.selfHandle := by
          rw [hh, contactHandle]
          rw [recordRef] at hself
          split at hself
          · cases hself
          · next hu => rw [if_neg hu, Ref.entry.inj hself]
        exact hold.2 (hkeeps.hidden hself (hhandle ▸ hread) hold.1)
      · rw [Function.update_of_ne hh, htoken, Option.some.injEq] at htoken'
        rw [if_neg (fun hr ↦ hh (userRef_eq_recordRef_iff.mp hr).1), htoken']
  · next hold =>
      rw [List.foldl_nil, htoken, Option.some.injEq] at htoken'
      subst htoken'
      split
      · next hr =>
          rw [hrecord hr] at hold
          cases htok : token with
          | none => exact hkeeps.appears handle hread hr (htok ▸ hrecord hr)
          | some text =>
              subst htok
              simpa using hold
      · rfl

/-- The condition on the reports of a batch, seen from the loop. -/
theorem steps_contactChanged {s : AvatarClient} {users : List FbApiUser}
    (h : Steady E s (.contacts myUid users)) :
    Steps (contactChanged E myUid)
      (fun b user ↦ KeepsToken E myUid s.known (recordToken b.list) user) ⟨s.list, ∅, []⟩ users :=
  (steps_map (f := fun b : Batch ↦ recordToken b.list) recordToken_contactChanged _ _).mp h

/-- The signals of a steady event are in order. -/
theorem signalled_of_steady {s : AvatarClient} {e : AvatarClientEvent} (h : Steady E s e) :
    Signalled E s e := by
  cases e with
  | contacts myUid users =>
      exact (steps_contactChanged h).mono fun b user hb ↦ wellSignalled_of_stays hb.stays
  | read handle => trivial

/-- **One event** that is steady keeps the client up to date. -/
theorem Tracks.step {s s' : AvatarClient} (h : Tracks E s) {e : AvatarClientEvent}
    (he : Steady E s e) (hs : step E s e = some s') : Tracks E s' := by
  cases e with
  | contacts myUid users =>
      obtain rfl := Option.some.inj hs
      have hloop := Steps.always
        (P := fun b : Batch ↦ Tracks E ⟨b.list, b.updated.foldl applyUpdated s.known⟩)
        (fun b user hb hkeeps ↦ tracks_contactChanged hb hkeeps) h (steps_contactChanged he)
      exact hloop.last
  | read handle =>
      obtain ⟨token, htoken, rfl⟩ := Option.map_eq_some_iff.mp hs
      intro handle' token' hknown
      dsimp only at hknown ⊢
      rcases eq_or_ne handle' handle with rfl | hne
      · rw [Function.update_self, Option.some.injEq] at hknown
        rwa [← hknown]
      · rw [Function.update_of_ne hne] at hknown
        exact h handle' token' hknown

/-- **When tokens are tracked.**  In a run whose events are all steady, the client knows
in every state, of every contact it has read, the token that the attribute query would
return; and every signal is for the contact that is reported, carries its token, and is
emitted only if that is there and was another one before. -/
theorem tracks_of_steady {es : List AvatarClientEvent}
    (hes : Steps (crashing (step E)) (fun t e ↦ ∀ s ∈ t, Steady E s e) (some (init E)) es) :
    Always (crashing (step E)) (fun t ↦ ∀ s ∈ t, Tracks E s) (some (init E)) es ∧
      Steps (crashing (step E)) (fun t e ↦ ∀ s ∈ t, Signalled E s e) (some (init E)) es := by
  refine ⟨hes.always ?_ ?_, hes.mono fun t e ht s hs ↦ signalled_of_steady (ht s hs)⟩
  · exact fun t e ht he ↦ forall_mem_crashing fun s hs s' hs' ↦ (ht s hs).step (he s hs) hs'
  · rintro s ⟨⟩ handle token h
    cases h

/-- A contact is read with the token "a" and then gets the token "b". -/
theorem tracks_bob :
    ∃ s, [AvatarClientEvent.contacts 1
          [⟨2, some "Bob", some "http://h/2.jpg", some "a", .areFriends⟩],
        .read (HandleRepo.numbering.ensure "2"),
        .contacts 1 [⟨2, some "Bob", some "http://h/2.jpg", some "b", .areFriends⟩]].foldl
          (crashing (step (.unmatched "login"))) (some (init (.unmatched "login"))) = some s ∧
      s.known (HandleRepo.numbering.ensure "2") = some (some "b") ∧
      Tracks (.unmatched "login") s := by
  have hes : Steps (crashing (step (.unmatched "login")))
      (fun t e ↦ ∀ s ∈ t, Steady (.unmatched "login") s e) (some (init (.unmatched "login")))
      [.contacts 1 [⟨2, some "Bob", some "http://h/2.jpg", some "a", .areFriends⟩],
        .read (HandleRepo.numbering.ensure "2"),
        .contacts 1 [⟨2, some "Bob", some "http://h/2.jpg", some "b", .areFriends⟩]] := by
    refine ⟨?_, fun _ _ ↦ trivial, ?_, trivial⟩
    · rintro s ⟨⟩
      exact ⟨⟨rfl, fun _ ↦ rfl, fun _ h ↦ (by cases h), fun _ h ↦ (by cases h)⟩, trivial⟩
    · rintro s ⟨⟩
      refine ⟨⟨rfl, fun _ ↦ rfl, fun _ _ _ h ↦ ?_, fun h ↦ ?_⟩, trivial⟩
      · revert h
        decide
      · revert h
        decide
  exact ⟨_, rfl, rfl, (tracks_of_steady hes).1.last _ rfl⟩

/-- A contact is read without a token and then gets one: nothing is signalled. -/
theorem first_token_not_signalled :
    ¬ Always (crashing (step (.unmatched "login")))
      (fun t ↦ ∀ s ∈ t, Tracks (.unmatched "login") s) (some (init (.unmatched "login")))
      [.contacts 1 [⟨2, some "Bob", some "http://h/2.jpg", none, .areFriends⟩],
        .read (HandleRepo.numbering.ensure "2"),
        .contacts 1 [⟨2, some "Bob", some "http://h/2.jpg", some "a", .areFriends⟩]] := by
  intro h
  have habsent := h.last _ rfl (HandleRepo.numbering.ensure "2") none rfl
  revert habsent
  decide

end AvatarClient

end TelepathyFacebook
