import Mathlib.Data.Finset.Card
import Mathlib.Data.Finset.Range
import Mathlib.Data.List.Perm.Subperm
import TelepathyFacebook.Lib.Runs

/-!
# The verification helper

The process of `observer/`: `handle_channels_cb` takes a reference of every verification
channel and announces the channel through a queued signal, `main` opens a window for an
announcement, and an outcome of the window is passed to `verified`, which gives the
reference back.

Signals that are connected directly are calls.  A queued signal and `deleteLater` are posted
to the event loop: `announce` and `deferredDelete` are the later iterations that process
them.  Closures know the tag of a channel only; the number of the reference that a window
was opened for is bookkeeping, and no step depends on it.

A `QApplication` also quits when its last window is closed (`quitOnLastWindowClosed`, which
`main` leaves at its default).  This is not modelled: `quit` is the work of the idle timer alone,
and a run goes on as far as the process does.

* `Inv` is what holds in every run.
* `consistent_iff`: the counter, the references and the idle timer are consistent in every
  state of a run exactly when no outcome comes from a window that is to be deleted, and the
  timer does not expire while an announcement is queued.
-/

namespace TelepathyFacebook

open Runs

/-- A `TpChannel`, with the properties that `handle_channels_cb` reads. -/
structure TpChannel where
  /-- The pointer. -/
  tag : Nat
  /-- `tp_proxy_has_interface` finds the AccountVerify interface. -/
  accountVerify : Bool
  verifyUrl : Option String
  title : Option String
  message : Option String
deriving DecidableEq, Repr

/-- A queued `accountVerify` signal. -/
structure Announcement where
  reference : Nat
  tag : Nat
  url : String
  title : String
  message : String
deriving DecidableEq, Repr

/-- `FacebookAccountVerifyUI`. -/
structure VerifyWindow where
  reference : Nat
  tag : Nat
  url : String
  /-- `deleteLater` was called. -/
  deleteLater : Bool
deriving DecidableEq, Repr

/-- A call of `FacebookAccountVerifyObserver::verified`. -/
structure VerifiedCall where
  reference : Nat
  tag : Nat
  ok : Bool
deriving DecidableEq, Repr

/-- The process. -/
structure Observer where
  /-- The tags of the references that were taken. -/
  refs : List Nat
  /-- The posted announcements. -/
  queue : List Announcement
  /-- How many announcements were processed. -/
  announced : Nat
  /-- The windows that are not deleted. -/
  windows : List VerifyWindow
  pending : Int
  /-- The idle timer is active. -/
  idle : Bool
  /-- The channels that are invalidated. -/
  invalidated : Finset Nat
  verified : List VerifiedCall
  /-- The calls after which AccountVerified and Close were sent. -/
  accountVerified : List VerifiedCall
  /-- The tags of the references that were given back. -/
  unrefs : List Nat
  /-- The idle timer has made the process quit. -/
  quit : Bool

/-- `REDIRECT_PREFIX`. -/
def redirectPrefix : String := "https://m.facebook.com/?deoia=1"

/-- What happens in the event loop. -/
inductive ObserverEvent where
  /-- `handle_channels_cb`. -/
  | handleChannels (channels : List TpChannel)
  /-- The next queued `accountVerify` signal is delivered. -/
  | announce
  /-- `acceptNavigationRequest` of the page of a window. -/
  | navigate (i : Nat) (url : String)
  /-- `closeEvent` of a window. -/
  | close (i : Nat)
  /-- The deferred deletion of a window runs. -/
  | deferredDelete (i : Nat)
  /-- A channel is invalidated. -/
  | invalidate (tag : Nat)
  /-- The interval of the idle timer is over. -/
  | idleTimeout

namespace Observer

/-! ## The code -/

/-- `main`, before the event loop. -/
def init : Observer := ⟨[], [], 0, [], 0, true, ∅, [], [], [], false⟩

/-- One round of the loop of `handle_channels_cb`. -/
def handleChannel (s : Observer) (channel : TpChannel) : Observer :=
  if channel.accountVerify then
    match channel.verifyUrl with
    | some url =>
        { s with
          refs := s.refs ++ [channel.tag]
          queue := s.queue ++ [⟨s.refs.length, channel.tag, url, channel.title.getD "",
            channel.message.getD ""⟩] }
    | none => s
  else s

/-- The slot of `accountVerify`. -/
def openWindow (s : Observer) (a : Announcement) : Observer :=
  { s with
    idle := false
    pending := s.pending + 1
    announced := s.announced + 1
    windows := s.windows ++ [⟨a.reference, a.tag, a.url, false⟩] }

/-- `FacebookAccountVerifyObserver::verified`. -/
def verify (s : Observer) (call : VerifiedCall) : Observer :=
  { s with
    verified := s.verified ++ [call]
    accountVerified :=
      if call.tag ∈ s.invalidated then s.accountVerified else s.accountVerified ++ [call]
    unrefs := s.unrefs ++ [call.tag] }

/-- The slot of the `verified` signal of a window. -/
def outcome (s : Observer) (i : Nat) (w : VerifyWindow) (ok : Bool) : Observer :=
  let s := s.verify ⟨w.reference, w.tag, ok⟩
  { s with
    pending := s.pending - 1
    idle := if s.pending - 1 = 0 then true else s.idle
    windows := s.windows.set i { w with deleteLater := true } }

/-- `acceptNavigationRequest` emits `verified`. -/
def IsRedirect (url : String) : Prop := redirectPrefix.toList <+: url.toList

instance (url : String) : Decidable (IsRedirect url) :=
  inferInstanceAs (Decidable (_ <+: _))

/-- One event, while the loop runs. -/
def process (s : Observer) : ObserverEvent → Observer
  | .handleChannels channels => channels.foldl handleChannel s
  | .announce =>
      match s.queue with
      | [] => s
      | a :: queue => openWindow { s with queue := queue } a
  | .navigate i url =>
      match s.windows[i]? with
      | none => s
      | some w => if IsRedirect url then s.outcome i w true else s
  | .close i =>
      match s.windows[i]? with
      | none => s
      | some w => s.outcome i w false
  | .deferredDelete i =>
      match s.windows[i]? with
      | none => s
      | some w => if w.deleteLater then { s with windows := s.windows.eraseIdx i } else s
  | .invalidate tag => { s with invalidated := insert tag s.invalidated }
  | .idleTimeout => if s.idle then { s with quit := true } else s

/-- One event. -/
def step (s : Observer) (e : ObserverEvent) : Observer := if s.quit then s else s.process e

/-! ## What is asked of a run -/

/-- The references that `verified` was called for. -/
def done (s : Observer) : List Nat := s.verified.map VerifiedCall.reference

/-- The announced references without an outcome. -/
def openRefs (s : Observer) : Finset Nat := {r ∈ Finset.range s.announced | r ∉ s.done}

/-- The process is consistent. -/
structure Consistent (s : Observer) : Prop where
  /-- The outcome of a reference is passed on at most once. -/
  once : s.done.Nodup
  /-- No channel gives back more references than were taken. -/
  unrefs : ∀ tag, s.unrefs.count tag ≤ s.refs.count tag
  /-- AccountVerified is sent at most once for a reference. -/
  sent : (s.accountVerified.map VerifiedCall.reference).Nodup
  /-- It is sent with the first outcome. -/
  first : ∀ call ∈ s.accountVerified,
    s.verified.find? (·.reference = call.reference) = some call
  /-- The counter is the number of announced windows without an outcome. -/
  pending : s.pending = s.openRefs.card
  /-- The timer runs only while it is zero. -/
  idle : s.idle → s.pending = 0
  /-- The timer quits only when every reference has its outcome. -/
  quit : s.quit → ∀ r < s.refs.length, r ∈ s.done
  /-- A reference without an outcome has its announcement, or its window, still. -/
  kept : ∀ r < s.refs.length, r ∈ s.done ∨ (∃ a ∈ s.queue, a.reference = r) ∨
    ∃ w ∈ s.windows, w.reference = r

/-- The condition on an event, while the loop runs: no outcome comes from a window that is
to be deleted, and the timer does not expire while an announcement is queued. -/
def Orderly (s : Observer) : ObserverEvent → Prop
  | .navigate i url => IsRedirect url → ∀ w ∈ s.windows[i]?, ¬ w.deleteLater
  | .close i => ∀ w ∈ s.windows[i]?, ¬ w.deleteLater
  | .idleTimeout => s.idle → s.queue = []
  | _ => True

/-! ## Invariants -/

/-- The tag that goes with a reference is the one it was taken of. -/
def Names (s : Observer) (reference tag : Nat) : Prop := s.refs[reference]? = some tag

/-- What holds in every state of every run. -/
structure Inv (s : Observer) : Prop where
  /-- The announcements are those of the references that are not announced yet, in order. -/
  order : s.queue.map Announcement.reference = List.range' s.announced s.queue.length
  total : s.announced + s.queue.length = s.refs.length
  queue : ∀ a ∈ s.queue, s.Names a.reference a.tag
  distinct : (s.windows.map VerifyWindow.reference).Nodup
  window : ∀ w ∈ s.windows, w.reference < s.announced ∧ s.Names w.reference w.tag ∧
    (w.deleteLater ↔ w.reference ∈ s.done)
  verified : ∀ call ∈ s.verified, call.reference < s.announced ∧ s.Names call.reference call.tag
  alive : ∀ r < s.announced, r ∈ s.done ∨ ∃ w ∈ s.windows, w.reference = r
  unrefs : s.unrefs = s.verified.map VerifiedCall.tag
  sent : s.accountVerified.Sublist s.verified

variable {s : Observer}

theorem mem_openRefs {r : Nat} : r ∈ s.openRefs ↔ r < s.announced ∧ r ∉ s.done := by
  rw [openRefs, Finset.mem_filter, Finset.mem_range]

theorem inv_init : Inv init where
  order := rfl
  total := rfl
  queue _ ha := by cases ha
  distinct := List.nodup_nil
  window _ hw := by cases hw
  verified _ hcall := by cases hcall
  alive _ hr := by cases hr
  unrefs := rfl
  sent := .refl _

theorem Inv.done_lt (h : Inv s) {r : Nat} (hr : r ∈ s.done) : r < s.announced := by
  obtain ⟨call, hcall, rfl⟩ := List.mem_map.mp hr
  exact (h.verified call hcall).1

theorem Names.concat {reference tag : Nat} (h : s.Names reference tag) (tag' : Nat) :
    (s.refs ++ [tag'])[reference]? = some tag := by
  obtain ⟨hlt, -⟩ := List.getElem?_eq_some_iff.mp h
  rw [List.getElem?_append_left hlt]
  exact h

theorem Inv.handleChannel (h : Inv s) (channel : TpChannel) : Inv (s.handleChannel channel) := by
  rw [Observer.handleChannel]
  split
  · split
    · next url _ =>
        refine ⟨?_, ?_, ?_, h.distinct, fun w hw ↦ ?_, fun call hcall ↦ ?_, h.alive, h.unrefs,
          h.sent⟩
        · rw [List.map_append, h.order, List.length_append, List.length_singleton,
            List.range'_1_concat, h.total]
          rfl
        · rw [List.length_append, List.length_append, ← Nat.add_assoc, h.total]
          rfl
        · intro a ha
          rcases List.mem_append.mp ha with hold | hnew
          · exact (h.queue a hold).concat _
          · obtain rfl := List.mem_singleton.mp hnew
            exact List.getElem?_concat_length
        · obtain ⟨hlt, hnames, hdelete⟩ := h.window w hw
          exact ⟨hlt, hnames.concat _, hdelete⟩
        · obtain ⟨hlt, hnames⟩ := h.verified call hcall
          exact ⟨hlt, hnames.concat _⟩
    · exact h
  · exact h

theorem Inv.openWindow (h : Inv s) {a : Announcement} {queue : List Announcement}
    (hq : s.queue = a :: queue) :
    a.reference = s.announced ∧ Inv (Observer.openWindow { s with queue := queue } a) := by
  have horder := h.order
  have htotal := h.total
  rw [hq, List.map_cons, List.length_cons, List.range'_succ, List.cons.injEq] at horder
  rw [hq, List.length_cons] at htotal
  obtain ⟨ha, horder⟩ := horder
  have hfresh : ∀ w ∈ s.windows, w.reference ≠ a.reference := by
    intro w hw heq
    exact absurd (h.window w hw).1 (by rw [heq, ha]; exact Nat.lt_irrefl _)
  refine ⟨ha, horder, ?_, ?_, ?_, ?_, ?_, ?_, h.unrefs, h.sent⟩
  · show s.announced + 1 + queue.length = s.refs.length
    omega
  · exact fun a' ha' ↦ h.queue a' (by rw [hq]; exact List.mem_cons_of_mem _ ha')
  · show ((s.windows ++ [_]).map VerifyWindow.reference).Nodup
    rw [List.map_append, List.nodup_append]
    refine ⟨h.distinct, List.nodup_singleton _, ?_⟩
    rintro r hr r' hr'
    obtain ⟨w, hw, rfl⟩ := List.mem_map.mp hr
    obtain rfl : r' = a.reference := by simpa using hr'
    exact hfresh w hw
  · intro w hw
    rcases List.mem_append.mp hw with hold | hnew
    · obtain ⟨hlt, hnames, hdelete⟩ := h.window w hold
      exact ⟨Nat.lt_succ_of_lt hlt, hnames, hdelete⟩
    · obtain rfl := List.mem_singleton.mp hnew
      refine ⟨?_, h.queue a (by rw [hq]; exact List.mem_cons_self), ?_⟩
      · show a.reference < s.announced + 1
        rw [ha]
        exact Nat.lt_succ_self _
      · apply iff_of_false Bool.false_ne_true
        intro hdone
        exact absurd (h.done_lt hdone) (by rw [ha]; exact Nat.lt_irrefl _)
  · intro call hcall
    obtain ⟨hlt, hnames⟩ := h.verified call hcall
    exact ⟨Nat.lt_succ_of_lt hlt, hnames⟩
  · intro r hr
    rcases Nat.lt_succ_iff_lt_or_eq.mp hr with hlt | rfl
    · rcases h.alive r hlt with hdone | ⟨w, hw, rfl⟩
      · exact .inl hdone
      · exact .inr ⟨w, List.mem_append_left _ hw, rfl⟩
    · exact .inr ⟨_, List.mem_append_right _ (List.mem_singleton_self _), ha⟩

theorem done_outcome (i : Nat) (w : VerifyWindow) (ok : Bool) :
    (s.outcome i w ok).done = s.done ++ [w.reference] :=
  List.map_append

/-- The windows stand for the same references when one of them is marked. -/
theorem references_set {i : Nat} {w : VerifyWindow} (hw : s.windows[i]? = some w) :
    (s.windows.set i { w with deleteLater := true }).map VerifyWindow.reference =
      s.windows.map VerifyWindow.reference := by
  rw [List.map_set]
  apply List.ext_getElem?
  intro j
  rw [List.getElem?_set]
  split
  · next h =>
      obtain ⟨hlt, hget⟩ := List.getElem?_eq_some_iff.mp hw
      subst h
      simp [hlt, hget]
  · rfl

/-- A window is the marked one, or that of another reference. -/
theorem Inv.mem_set (h : Inv s) {i : Nat} {w : VerifyWindow} (hw : s.windows[i]? = some w)
    {w' : VerifyWindow} (hw' : w' ∈ s.windows.set i { w with deleteLater := true }) :
    w' = { w with deleteLater := true } ∨ w' ∈ s.windows ∧ w'.reference ≠ w.reference := by
  obtain ⟨j, hj⟩ := List.mem_iff_getElem?.mp hw'
  rw [List.getElem?_set] at hj
  split at hj
  · split at hj
    · exact .inl (Option.some.inj hj).symm
    · cases hj
  · next hne =>
      refine .inr ⟨List.mem_of_getElem? hj, fun heq ↦ hne ?_⟩
      obtain ⟨hlt, -⟩ := List.getElem?_eq_some_iff.mp hw
      refine (List.getElem?_inj (by rwa [List.length_map]) h.distinct).mp ?_
      rw [List.getElem?_map, List.getElem?_map, hw, hj, Option.map_some, Option.map_some, heq]

theorem Inv.outcome (h : Inv s) {i : Nat} {w : VerifyWindow} (hw : s.windows[i]? = some w)
    (ok : Bool) : Inv (s.outcome i w ok) := by
  obtain ⟨hlt, hnames, hdelete⟩ := h.window w (List.mem_of_getElem? hw)
  refine ⟨h.order, h.total, h.queue, ?_, fun w' hw' ↦ ?_, fun call hcall ↦ ?_, fun r hr ↦ ?_,
    ?_, ?_⟩
  · show ((s.windows.set i _).map VerifyWindow.reference).Nodup
    rw [references_set hw]
    exact h.distinct
  · rw [done_outcome, List.mem_append, List.mem_singleton]
    rcases h.mem_set hw hw' with rfl | ⟨hold, hne⟩
    · exact ⟨hlt, hnames, iff_of_true rfl (.inr rfl)⟩
    · obtain ⟨hlt', hnames', hdelete'⟩ := h.window w' hold
      exact ⟨hlt', hnames', hdelete'.trans (or_iff_left hne).symm⟩
  · rcases List.mem_append.mp hcall with hold | hnew
    · exact h.verified call hold
    · obtain rfl := List.mem_singleton.mp hnew
      exact ⟨hlt, hnames⟩
  · rw [done_outcome, ← List.mem_map]
    show r ∈ s.done ++ [w.reference] ∨ r ∈ (s.windows.set i _).map VerifyWindow.reference
    rw [references_set hw, List.mem_map]
    exact (h.alive r hr).imp_left (List.mem_append_left _)
  · show s.unrefs ++ [w.tag] = (s.verified ++ [_]).map VerifiedCall.tag
    rw [List.map_append, h.unrefs]
    rfl
  · show List.Sublist (if w.tag ∈ s.invalidated then _ else _) (s.verified ++ [_])
    split
    · exact h.sent.trans (List.sublist_append_left _ _)
    · exact h.sent.append (.refl _)

theorem Inv.deferredDelete (h : Inv s) {i : Nat} {w : VerifyWindow}
    (hw : s.windows[i]? = some w) (hdelete : w.deleteLater) :
    Inv { s with windows := s.windows.eraseIdx i } := by
  have hsub : (s.windows.eraseIdx i).Sublist s.windows := List.eraseIdx_sublist _ _
  refine ⟨h.order, h.total, h.queue, h.distinct.sublist (hsub.map _),
    fun w' hw' ↦ h.window w' (hsub.mem hw'), h.verified, fun r hr ↦ ?_, h.unrefs, h.sent⟩
  rcases h.alive r hr with hdone | ⟨w', hw', rfl⟩
  · exact .inl hdone
  · obtain ⟨j, hj⟩ := List.mem_iff_getElem?.mp hw'
    rcases eq_or_ne j i with rfl | hne
    · -- The deleted window has had its outcome.
      obtain rfl : w = w' := Option.some.inj (hw.symm.trans hj)
      exact .inl ((h.window w hw').2.2.mp hdelete)
    · exact .inr ⟨w', List.mem_eraseIdx_iff_getElem?.mpr ⟨j, hne, hj⟩, rfl⟩

/-- Every event keeps the invariant. -/
theorem Inv.process (h : Inv s) (e : ObserverEvent) : Inv (s.process e) := by
  cases e with
  | handleChannels channels => exact foldl_invariant (fun _ c hs ↦ hs.handleChannel c) h channels
  | announce =>
      rw [Observer.process]
      split
      · exact h
      · next hq => exact (h.openWindow hq).2
  | navigate i url =>
      rw [Observer.process]
      split
      · exact h
      · next hw =>
          split
          · exact h.outcome hw true
          · exact h
  | close i =>
      rw [Observer.process]
      split
      · exact h
      · next hw => exact h.outcome hw false
  | deferredDelete i =>
      rw [Observer.process]
      split
      · exact h
      · next hw =>
          split
          · next hdelete => exact h.deferredDelete hw hdelete
          · exact h
  | invalidate tag =>
      exact ⟨h.order, h.total, h.queue, h.distinct, h.window, h.verified, h.alive, h.unrefs,
        h.sent⟩
  | idleTimeout =>
      rw [Observer.process]
      split
      · exact ⟨h.order, h.total, h.queue, h.distinct, h.window, h.verified, h.alive, h.unrefs,
          h.sent⟩
      · exact h

theorem Inv.step (h : Inv s) (e : ObserverEvent) : Inv (s.step e) := by
  rw [Observer.step]
  split
  · exact h
  · exact h.process e

/-! ## Consistency -/

/-- A reference that was taken belongs to no more than its channel. -/
theorem Inv.count_unrefs_le (h : Inv s) (honce : s.done.Nodup) (tag : Nat) :
    s.unrefs.count tag ≤ s.refs.count tag := by
  have hlength : s.announced ≤ s.refs.length := h.total ▸ Nat.le_add_right _ _
  have hunrefs : s.unrefs.map some = s.done.map (s.refs[·]?) := by
    rw [h.unrefs, done, List.map_map, List.map_map]
    exact List.map_congr_left fun call hcall ↦ (h.verified call hcall).2.symm
  have hrefs : s.refs.map some = (List.range s.refs.length).map (s.refs[·]?) := by
    apply List.ext_getElem (by simp)
    intro i h1 h2
    simp
  have hsub : (s.done.map (s.refs[·]?)).Subperm (s.refs.map some) := by
    obtain ⟨l, hperm, hl⟩ : s.done.Subperm (List.range s.refs.length) :=
      honce.subperm fun r hr ↦ List.mem_range.mpr ((h.done_lt hr).trans_le hlength)
    rw [hrefs]
    exact ⟨l.map _, hperm.map _, hl.map _⟩
  have hcount := hsub.count_le (some tag)
  rw [← hunrefs] at hcount
  rwa [List.count_map_of_injective _ _ (Option.some_injective _),
    List.count_map_of_injective _ _ (Option.some_injective _)] at hcount

theorem find?_reference {calls : List VerifiedCall}
    (h : (calls.map VerifiedCall.reference).Nodup) {call : VerifiedCall} (hcall : call ∈ calls) :
    calls.find? (·.reference = call.reference) = some call := by
  cases hfind : calls.find? (·.reference = call.reference) with
  | none => simpa using List.find?_eq_none.mp hfind call hcall
  | some call' =>
      have heq : call'.reference = call.reference := by simpa using List.find?_some hfind
      rw [List.inj_on_of_nodup_map h (List.mem_of_find?_eq_some hfind) hcall heq]

/-- What the references need, apart from the counter and the timer, is that no outcome is
passed on twice. -/
theorem Inv.consistent (h : Inv s) (honce : s.done.Nodup)
    (hpending : s.pending = s.openRefs.card) (hidle : s.idle → s.pending = 0)
    (hquit : s.quit → ∀ r < s.refs.length, r ∈ s.done) : Consistent s where
  once := honce
  unrefs := h.count_unrefs_le honce
  sent := honce.sublist (h.sent.map _)
  first _ hcall := find?_reference honce (h.sent.mem hcall)
  pending := hpending
  idle := hidle
  quit := hquit
  kept r hr := by
    rcases Nat.lt_or_ge r s.announced with hlt | hge
    · exact (h.alive r hlt).imp_right .inr
    · have hmem : r ∈ s.queue.map Announcement.reference := by
        rw [h.order, List.mem_range'_1, h.total]
        exact ⟨hge, hr⟩
      exact .inr (.inl (List.mem_map.mp hmem))

theorem consistent_init : Consistent init :=
  inv_init.consistent List.nodup_nil rfl (fun _ ↦ rfl) (fun h ↦ absurd h Bool.false_ne_true)

/-- A change that neither passes on an outcome nor opens a window keeps the process
consistent. -/
theorem Consistent.frame (hc : Consistent s) {s' : Observer} (h' : Inv s') (hquit : ¬ s'.quit)
    (hverified : s'.verified = s.verified) (hannounced : s'.announced = s.announced)
    (hpending : s'.pending = s.pending) (hidle : s'.idle = s.idle) : Consistent s' := by
  have hdone : s'.done = s.done := congrArg (List.map VerifiedCall.reference) hverified
  refine h'.consistent (hdone ▸ hc.once) ?_ (by rw [hidle, hpending]; exact hc.idle)
    (fun h ↦ absurd h hquit)
  rw [hpending, hc.pending, openRefs, openRefs, hdone, hannounced]

theorem handleChannel_frame (s : Observer) (channel : TpChannel) :
    (s.handleChannel channel).verified = s.verified ∧
      (s.handleChannel channel).announced = s.announced ∧
      (s.handleChannel channel).pending = s.pending ∧
      (s.handleChannel channel).idle = s.idle ∧ (s.handleChannel channel).quit = s.quit := by
  rw [handleChannel]
  split
  · split <;> exact ⟨rfl, rfl, rfl, rfl, rfl⟩
  · exact ⟨rfl, rfl, rfl, rfl, rfl⟩

theorem Consistent.handleChannels (hc : Consistent s) (h : Inv s) (hquit : ¬ s.quit)
    (channels : List TpChannel) : Consistent (channels.foldl handleChannel s) := by
  have hall : Inv (channels.foldl handleChannel s) ∧ Consistent (channels.foldl handleChannel s) ∧
      ¬ (channels.foldl handleChannel s).quit := by
    refine foldl_invariant (P := fun s ↦ Inv s ∧ Consistent s ∧ ¬ s.quit) ?_ ⟨h, hc, hquit⟩
      channels
    rintro s channel ⟨h, hc, hquit⟩
    obtain ⟨hverified, hannounced, hpending, hidle, hq⟩ := handleChannel_frame s channel
    have hquit' : ¬ (s.handleChannel channel).quit := by rwa [hq]
    exact ⟨h.handleChannel channel, hc.frame (h.handleChannel channel) hquit' hverified
      hannounced hpending hidle, hquit'⟩
  exact hall.2.1

/-- A new window is one more without an outcome. -/
theorem Consistent.openWindow (hc : Consistent s) (h : Inv s) (hquit : ¬ s.quit)
    {a : Announcement} {queue : List Announcement} (hq : s.queue = a :: queue) :
    Consistent (Observer.openWindow { s with queue := queue } a) := by
  refine (h.openWindow hq).2.consistent hc.once ?_ (fun h ↦ absurd h Bool.false_ne_true)
    (fun h ↦ absurd h hquit)
  have hopen : (Observer.openWindow { s with queue := queue } a).openRefs =
      insert s.announced s.openRefs := by
    ext r
    rw [Finset.mem_insert, mem_openRefs, mem_openRefs]
    show r < s.announced + 1 ∧ r ∉ s.done ↔ _
    constructor
    · rintro ⟨hlt, hdone⟩
      exact (Nat.lt_succ_iff_lt_or_eq.mp hlt).symm.imp_right fun hlt ↦ ⟨hlt, hdone⟩
    · rintro (rfl | ⟨hlt, hdone⟩)
      · exact ⟨Nat.lt_succ_self _, fun hdone ↦ Nat.lt_irrefl _ (h.done_lt hdone)⟩
      · exact ⟨Nat.lt_succ_of_lt hlt, hdone⟩
  rw [hopen, Finset.card_insert_of_notMem fun hmem ↦ Nat.lt_irrefl _ (mem_openRefs.mp hmem).1]
  have hpending := hc.pending
  show s.pending + 1 = _
  omega

/-- **An outcome** keeps the process consistent exactly when its window had none. -/
theorem Consistent.outcome_iff (hc : Consistent s) (h : Inv s) (hquit : ¬ s.quit) {i : Nat}
    {w : VerifyWindow} (hw : s.windows[i]? = some w) (ok : Bool) :
    Consistent (s.outcome i w ok) ↔ ¬ w.deleteLater := by
  obtain ⟨hlt, -, hdelete⟩ := h.window w (List.mem_of_getElem? hw)
  rw [hdelete]
  constructor
  · intro hc' hdone
    have honce := hc'.once
    rw [done_outcome, List.nodup_append] at honce
    exact honce.2.2 _ hdone _ (List.mem_singleton_self _) rfl
  · intro hdone
    have hmem : w.reference ∈ s.openRefs := mem_openRefs.mpr ⟨hlt, hdone⟩
    have hopen : (s.outcome i w ok).openRefs = s.openRefs.erase w.reference := by
      ext r
      rw [Finset.mem_erase, mem_openRefs, mem_openRefs, done_outcome, List.mem_append,
        List.mem_singleton, not_or]
      exact ⟨fun ⟨hlt, hnot, hne⟩ ↦ ⟨hne, hlt, hnot⟩, fun ⟨hne, hlt, hnot⟩ ↦ ⟨hlt, hnot, hne⟩⟩
    have hpos : 0 < s.openRefs.card := Finset.card_pos.mpr ⟨_, hmem⟩
    have hpending := hc.pending
    refine (h.outcome hw ok).consistent ?_ ?_ (fun hidle ↦ ?_) (fun h ↦ absurd h hquit)
    · rw [done_outcome, List.nodup_append]
      refine ⟨hc.once, List.nodup_singleton _, ?_⟩
      rintro r hr r' hr' rfl
      exact hdone (by rwa [List.mem_singleton.mp hr'] at hr)
    · rw [hopen, Finset.card_erase_of_mem hmem]
      show s.pending - 1 = _
      omega
    · -- The timer was stopped: there was a window without an outcome.
      have hidle : (if s.pending - 1 = 0 then true else s.idle) = true := hidle
      show s.pending - 1 = 0
      split at hidle
      · assumption
      · have hzero := hc.idle hidle
        omega

/-- **The idle timer** leaves no reference behind exactly when no announcement is queued. -/
theorem Consistent.idleTimeout_iff (hc : Consistent s) (h : Inv s) (hidle : s.idle) :
    Consistent { s with quit := true } ↔ s.queue = [] := by
  have htotal := h.total
  constructor
  · intro hc'
    by_contra hne
    have hlt : s.announced < s.refs.length := by
      have hpos := List.length_pos_iff.mpr hne
      omega
    exact Nat.lt_irrefl _ (h.done_lt (hc'.quit rfl _ hlt))
  · intro hqueue
    rw [hqueue, List.length_nil, Nat.add_zero] at htotal
    have hzero : s.openRefs.card = 0 := by
      have hpending := hc.pending
      have hidle := hc.idle hidle
      omega
    have hinv : Inv { s with quit := true } := ⟨h.order, h.total, h.queue, h.distinct, h.window,
      h.verified, h.alive, h.unrefs, h.sent⟩
    apply hinv.consistent hc.once hc.pending hc.idle
    intro _ r hr
    by_contra hdone
    have hmem : r ∈ s.openRefs := mem_openRefs.mpr ⟨htotal ▸ hr, hdone⟩
    rw [Finset.card_eq_zero.mp hzero] at hmem
    cases hmem

/-- **What an event does** to a consistent process. -/
theorem Consistent.process_iff (hc : Consistent s) (h : Inv s) (hquit : ¬ s.quit)
    (e : ObserverEvent) : Consistent (s.process e) ↔ s.Orderly e := by
  cases e with
  | handleChannels channels => exact iff_of_true (hc.handleChannels h hquit channels) trivial
  | announce =>
      refine iff_of_true ?_ trivial
      rw [Observer.process]
      split
      · exact hc
      · next hq => exact hc.openWindow h hquit hq
  | navigate i url =>
      rw [Observer.process, Orderly]
      split
      · next hw => simp [hc, hw]
      · next w hw =>
          split
          · next hredirect => simp [hc.outcome_iff h hquit hw, hredirect, hw]
          · next hother => simp [hc, hother]
  | close i =>
      rw [Observer.process, Orderly]
      split
      · next hw => simp [hc, hw]
      · next w hw => simp [hc.outcome_iff h hquit hw, hw]
  | deferredDelete i =>
      refine iff_of_true ?_ trivial
      rw [Observer.process]
      split
      · exact hc
      · next hw =>
          split
          · next hdelete => exact hc.frame (h.deferredDelete hw hdelete) hquit rfl rfl rfl rfl
          · exact hc
  | invalidate tag => exact iff_of_true (hc.frame (h.process _) hquit rfl rfl rfl rfl) trivial
  | idleTimeout =>
      rw [Observer.process, Orderly]
      split
      · next hidle => rw [hc.idleTimeout_iff h hidle, imp_iff_right hidle]
      · next hidle => exact iff_of_true hc fun hactive ↦ absurd hactive hidle

/-! ## Runs -/

/-- **When the helper process is consistent.**  In every state of a run every outcome is
passed on once, the counter is the number of windows without an outcome and the idle timer
leaves no reference behind, if and only if, while the process runs, no window has an outcome
after its first, and the idle timer does not expire while an announcement is queued. -/
theorem consistent_iff (es : List ObserverEvent) :
    Always step Consistent init es ↔ Steps step (fun s e ↦ ¬ s.quit → s.Orderly e) init es := by
  refine always_iff (fun s e h ↦ h.step e) (fun s e h hc ↦ ?_) inv_init consistent_init es
  rw [step]
  split
  · next hquit => exact iff_of_true hc fun hrun ↦ absurd hquit hrun
  · next hquit => rw [imp_iff_right hquit, hc.process_iff h hquit]

/-- A second navigation before the deferred deletion passes on a second outcome, and the
timer quits over a queued announcement. -/
theorem outcome_twice :
    ¬ Always step Consistent init
        [.handleChannels [⟨1, true, some "https://m.facebook.com/verify", none, none⟩], .announce,
          .navigate 0 redirectPrefix, .navigate 0 redirectPrefix] ∧
      ¬ Always step Consistent init
        [.handleChannels [⟨1, true, some "https://m.facebook.com/verify", none, none⟩],
          .idleTimeout] := by
  constructor
  · intro h
    exact absurd h.last.once (by decide)
  · intro h
    exact absurd (h.last.quit rfl 0) (by decide)

end Observer

end TelepathyFacebook
