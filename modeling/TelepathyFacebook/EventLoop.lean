import Mathlib.Data.List.Nodup
import Mathlib.Tactic.Common

/-!
# The event loop

`bitlbee-compat/events_glib.c` over the main loop of GLib.  A watch calls its closure when
its descriptor is ready; `b_input_add` gives it an identifier, by which `b_event_remove`
removes it.  GLib numbers its sources from 1 and gives no number again (it wraps only after
2³² of them), so the identifiers of the watches are distinct at any time.

The flags of `b_input_condition` are left out: no caller sets one, and without them a watch
stays while its function returns TRUE, which no function of the callers does.
-/

universe u

namespace TelepathyFacebook

/-- A file descriptor. -/
abbrev Fd := Int

/-- `b_input_condition`, without its flags. -/
inductive BInputCondition where
  | read
  | write
deriving DecidableEq, Repr

/-- A source that `g_io_add_watch_full` made. -/
structure Watch (κ : Type u) where
  tag : Nat
  fd : Fd
  cond : BInputCondition
  closure : κ
deriving DecidableEq, Repr

/-- The watches of the main loop. -/
structure EventLoop (κ : Type u) where
  watches : List (Watch κ)
  nextTag : Nat
  nextTag_pos : 0 < nextTag
  bound : ∀ x ∈ watches, 0 < x.tag ∧ x.tag < nextTag
  nodup : (watches.map Watch.tag).Nodup

namespace EventLoop

variable {κ : Type u}

def empty : EventLoop κ := ⟨[], 1, Nat.one_pos, by simp, List.nodup_nil⟩

/-- `b_input_add`; the new watch has the identifier `nextTag`. -/
def bInputAdd (l : EventLoop κ) (fd : Fd) (cond : BInputCondition) (closure : κ) :
    EventLoop κ where
  watches := l.watches ++ [⟨l.nextTag, fd, cond, closure⟩]
  nextTag := l.nextTag + 1
  nextTag_pos := Nat.succ_pos _
  bound x hx := by
    rcases List.mem_append.mp hx with hx | hx
    · exact (l.bound x hx).imp_right Nat.lt_succ_of_lt
    · obtain rfl := List.mem_singleton.mp hx
      exact ⟨l.nextTag_pos, Nat.lt_succ_self _⟩
  nodup := by
    rw [List.map_append, List.map_singleton, List.nodup_append]
    refine ⟨l.nodup, List.nodup_singleton _, ?_⟩
    rintro _ ht _ ht' rfl
    obtain ⟨x, hx, rfl⟩ := List.mem_map.mp ht
    exact Nat.ne_of_lt (l.bound x hx).2 (List.mem_singleton.mp ht')

/-- `b_event_remove`; GLib complains about an identifier that no source has, and goes on. -/
def bEventRemove (l : EventLoop κ) (tag : Nat) : EventLoop κ where
  watches := l.watches.filter (·.tag ≠ tag)
  nextTag := l.nextTag
  nextTag_pos := l.nextTag_pos
  bound x hx := l.bound x (List.mem_of_mem_filter hx)
  nodup := l.nodup.sublist (List.filter_sublist.map _)

def find (l : EventLoop κ) (tag : Nat) : Option (Watch κ) := l.watches.find? (·.tag = tag)

/-- What comes of a descriptor being ready. -/
inductive Wakeup (κ : Type u) where
  /-- No source is dispatched. -/
  | none
  /-- `gaim_io_invoke` returns FALSE without a call. -/
  | dropped
  /-- `gaim_io_invoke` calls the function of the closure. -/
  | call (x : Watch κ)

/-- The dispatch of a source.  A closed descriptor polls as `G_IO_NVAL`, which
`GAIM_READ_COND` does not ask for and at which `gaim_io_invoke` gives up. -/
def gaimIoInvoke (l : EventLoop κ) (isOpen : Fd → Bool) (tag : Nat) : Wakeup κ :=
  match l.find tag with
  | none => .none
  | some x =>
      if isOpen x.fd then .call x
      else match x.cond with
        | .read => .none
        | .write => .dropped

/-- The loop in which one identifier was given to a watch that is gone again. -/
def pass (l : EventLoop κ) : EventLoop κ where
  watches := l.watches
  nextTag := l.nextTag + 1
  nextTag_pos := Nat.succ_pos _
  bound x hx := (l.bound x hx).imp_right Nat.lt_succ_of_lt
  nodup := l.nodup

variable {l : EventLoop κ}

@[simp] theorem watches_empty : (empty : EventLoop κ).watches = [] := rfl

@[simp] theorem mem_bInputAdd {fd : Fd} {cond : BInputCondition} {closure : κ} {x : Watch κ} :
    x ∈ (l.bInputAdd fd cond closure).watches ↔
      x ∈ l.watches ∨ x = ⟨l.nextTag, fd, cond, closure⟩ := by
  show x ∈ l.watches ++ [_] ↔ _
  rw [List.mem_append, List.mem_singleton]

@[simp] theorem mem_bEventRemove {tag : Nat} {x : Watch κ} :
    x ∈ (l.bEventRemove tag).watches ↔ x ∈ l.watches ∧ x.tag ≠ tag := by
  show x ∈ l.watches.filter _ ↔ _
  rw [List.mem_filter, decide_eq_true_eq]

@[simp] theorem watches_pass : l.pass.watches = l.watches := rfl

/-- A watch that is added and removed at once. -/
theorem bEventRemove_bInputAdd (fd : Fd) (cond : BInputCondition) (closure : κ) :
    (l.bInputAdd fd cond closure).bEventRemove l.nextTag = l.pass := by
  have hold : l.watches.filter (·.tag ≠ l.nextTag) = l.watches :=
    List.filter_eq_self.mpr fun x hx ↦ decide_eq_true (Nat.ne_of_lt (l.bound x hx).2)
  have hwatches : (l.watches ++ [(⟨l.nextTag, fd, cond, closure⟩ : Watch κ)]).filter
      (·.tag ≠ l.nextTag) = l.watches := by
    rw [List.filter_append, hold, List.filter_cons_of_neg (by simp), List.filter_nil,
      List.append_nil]
  simp only [bEventRemove, bInputAdd, pass, hwatches]

theorem eq_of_tag_eq {x y : Watch κ} (hx : x ∈ l.watches) (hy : y ∈ l.watches)
    (h : x.tag = y.tag) : x = y :=
  List.inj_on_of_nodup_map l.nodup hx hy h

theorem find_eq_some_iff {tag : Nat} {x : Watch κ} :
    l.find tag = some x ↔ x ∈ l.watches ∧ x.tag = tag := by
  constructor
  · intro h
    exact ⟨List.mem_of_find?_eq_some h, by simpa using List.find?_some h⟩
  · rintro ⟨hx, rfl⟩
    cases hy : l.find x.tag with
    | none => simpa using List.find?_eq_none.mp hy x hx
    | some y =>
        have htag : y.tag = x.tag := by simpa using List.find?_some hy
        rw [eq_of_tag_eq (List.mem_of_find?_eq_some hy) hx htag]

/-- A function is called for a watch whose descriptor is open. -/
theorem gaimIoInvoke_eq_call_iff {isOpen : Fd → Bool} {tag : Nat} {x : Watch κ} :
    l.gaimIoInvoke isOpen tag = .call x ↔ x ∈ l.watches ∧ x.tag = tag ∧ isOpen x.fd := by
  rw [← and_assoc, ← find_eq_some_iff, gaimIoInvoke]
  cases l.find tag with
  | none => simp
  | some y =>
      by_cases hy : isOpen y.fd
      · simp only [hy, if_true, Wakeup.call.injEq, Option.some.injEq]
        exact ⟨fun h ↦ ⟨h, h ▸ hy⟩, fun h ↦ h.1⟩
      · have hne : y = x → isOpen x.fd = false := fun h ↦ h ▸ Bool.not_eq_true _ ▸ hy
        cases hc : y.cond <;> simpa [hy, hc] using hne

/-- Only the watch of a closed descriptor is dropped. -/
theorem exists_of_gaimIoInvoke_eq_dropped {isOpen : Fd → Bool} {tag : Nat}
    (h : l.gaimIoInvoke isOpen tag = .dropped) :
    ∃ x ∈ l.watches, x.tag = tag ∧ isOpen x.fd = false := by
  rw [gaimIoInvoke] at h
  cases hfind : l.find tag with
  | none =>
      rw [hfind] at h
      cases h
  | some x =>
      obtain ⟨hx, htag⟩ := find_eq_some_iff.mp hfind
      refine ⟨x, hx, htag, Bool.eq_false_iff.mpr fun hopen ↦ ?_⟩
      rw [hfind] at h
      dsimp only at h
      rw [if_pos hopen] at h
      cases h

end EventLoop

end TelepathyFacebook
