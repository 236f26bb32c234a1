import TelepathyFacebook.ContactUid
import TelepathyFacebook.Protocol

/-!
# One identity per user

Three paths turn a uid into a handle: the contact batch, which files the account's own
user under the handle of the login id, `fb_contact_list_ensure_handle`, and the presence
batch.  The last two know nothing of the own user.

`oneIdentity_iff`: for a uid they all mean the same handle, and `fb_contact_list_get_user`
finds that user's record under it and nobody else's, exactly when the uid is the own one
just in case its decimal text is the login id.
-/

namespace TelepathyFacebook

open Runs ContactList

namespace ContactList

variable (E : ContactEnv)

/-- The handle under which a contact batch files a user. -/
def contactHandle (myUid uid : FbId) : TpHandle :=
  if uid = myUid then E.selfHandle else E.ensureHandle uid

/-- The record that a contact batch keeps for a user. -/
def contactRef (myUid uid : FbId) : Ref :=
  if uid = myUid then .me else .entry (E.ensureHandle uid)

/-- The last report of a user. -/
def lastReport (r : Roster) (myUid uid : FbId) : Option FbApiUser :=
  if uid = myUid then r.own else r.report uid

/-- A user has one identity: the paths agree on its handle, which is no other user's, and
the record under it is that user's and no other's. -/
structure OneIdentity (myUid : FbId) (s : ContactList × Roster) (uid : FbId) : Prop where
  /-- The contact batch files the user under the handle that
  `fb_contact_list_ensure_handle` returns. -/
  handle : contactHandle E myUid uid = E.ensureHandle uid
  /-- No other user has that handle. -/
  distinct : ∀ uid', contactHandle E myUid uid' = contactHandle E myUid uid → uid' = uid
  /-- `fb_contact_list_get_user` returns the record of the user. -/
  pointer : userRef E (E.ensureHandle uid) = contactRef E myUid uid
  /-- No other user has that record. -/
  alone : ∀ uid', contactRef E myUid uid' = contactRef E myUid uid → uid' = uid
  /-- The record was filled from the last report of the user. -/
  filled : ∀ user, lastReport s.2 myUid uid = some user →
    ∃ c, getUser E s.1 (E.ensureHandle uid) = some c ∧ FilledFrom c user
  /-- A presence of the user writes to that record only. -/
  presence : ∀ active table s', presenceChanged E (s.1, table) ⟨uid, active⟩ = some s' →
    ∀ ref ≠ contactRef E myUid uid, s'.1.deref ref = s.1.deref ref

variable {E} {myUid uid : FbId}

/-- The record of a report is that of its user. -/
theorem recordRef_eq_contactRef (user : FbApiUser) :
    recordRef E myUid user = contactRef E myUid user.uid := rfl

/-- A batch announces a user other than the account's own under its contact handle. -/
theorem mem_contacts_contactChanged_iff (b : Batch) (user : FbApiUser) (handle : TpHandle) :
    handle ∈ (contactChanged E myUid b user).contacts ↔
      handle ∈ b.contacts ∨ user.uid ≠ myUid ∧ handle = contactHandle E myUid user.uid := by
  rw [mem_contacts_contactChanged]
  refine or_congr_right (and_congr_right fun hne ↦ ?_)
  rw [contactHandle, if_neg hne]

/-- A presence writes to the record that `fb_contact_list_get_user` returns. -/
theorem deref_presenceChanged_of_ne {s s' : ContactList × StatusTable} {pres : FbApiPresence}
    (h : presenceChanged E s pres = some s') {ref : Ref}
    (hne : ref ≠ userRef E (E.ensureHandle pres.uid)) : s'.1.deref ref = s.1.deref ref := by
  obtain ⟨c, -, -, ⟨hid, hme, htable⟩ | ⟨hid, hme, htable⟩⟩ := presenceChanged_spec h
  · have hself := (E.ensureHandle_eq_selfHandle pres.uid).mpr hid
    rw [userRef, if_pos hself] at hne
    cases ref with
    | me => exact absurd rfl hne
    | entry handle => rw [deref, deref, htable]
  · have hself := mt (E.ensureHandle_eq_selfHandle pres.uid).mp hid
    rw [userRef, if_neg hself] at hne
    cases ref with
    | me => rw [deref, deref, hme]
    | entry handle =>
        rw [deref, deref, htable, if_neg]
        rintro rfl
        exact hne rfl

/-- **When a user has one identity.** -/
theorem oneIdentity_iff_of_represents {s : ContactList × Roster} (h : Represents E s.1 s.2) :
    OneIdentity E myUid s uid ↔ (uid = myUid ↔ fbIdToStr uid = E.fbId) := by
  constructor
  · intro hone
    have hhandle := hone.handle
    have hpointer := hone.pointer
    rw [← E.ensureHandle_eq_selfHandle]
    constructor
    · intro hu
      rw [← hhandle, contactHandle, if_pos hu]
    · intro hself
      by_contra hu
      rw [userRef, if_pos hself, contactRef, if_neg hu] at hpointer
      cases hpointer
  · intro hid
    rw [← E.ensureHandle_eq_selfHandle] at hid
    have hhandle : contactHandle E myUid uid = E.ensureHandle uid := by
      rw [contactHandle]
      split
      · next hu => exact (hid.mp hu).symm
      · rfl
    have hpointer : userRef E (E.ensureHandle uid) = contactRef E myUid uid := by
      rw [userRef, contactRef]
      by_cases hu : uid = myUid
      · rw [if_pos hu, if_pos (hid.mp hu)]
      · rw [if_neg hu, if_neg (mt hid.mpr hu)]
    refine ⟨hhandle, fun uid' h' ↦ ?_, hpointer, fun uid' h' ↦ ?_, fun user hu ↦ ?_, ?_⟩
    · rw [hhandle, contactHandle] at h'
      split at h'
      · next hu' => rw [hu', ← hid.mpr h'.symm]
      · exact E.ensureHandle_injective h'
    · rw [contactRef, contactRef] at h'
      split at h' <;> split at h'
      · next hu' hu => rw [hu', hu]
      · cases h'
      · cases h'
      · exact E.ensureHandle_injective (Ref.entry.inj h')
    · rw [getUser, hpointer, contactRef]
      rw [lastReport] at hu
      by_cases hm : uid = myUid
      · rw [if_pos hm] at hu
        exact ⟨s.1.me, by rw [if_pos hm]; rfl, h.own user hu⟩
      · rw [if_neg hm] at hu
        obtain ⟨c, hc, hfilled⟩ := h.record uid user hu
        exact ⟨c, by rw [if_neg hm]; exact hc, hfilled⟩
    · intro active table s' hs ref hne
      exact deref_presenceChanged_of_ne hs (by rwa [hpointer])

end ContactList

end TelepathyFacebook
