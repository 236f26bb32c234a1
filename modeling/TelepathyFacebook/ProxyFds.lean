import TelepathyFacebook.ProxyRuns

/-!
# The descriptors of the proxy code

* `openFds_accounted`: a descriptor that is open and was not opened by others belongs to a
  record that lives, or its owner was called with it; none is leaked.
* `closes_open_iff`: where the code closes a descriptor that is not open.
-/

namespace TelepathyFacebook

open Proxy Runs

namespace Proxy

/-- The descriptors that were closed, and whether they were open. -/
def Verdict.closes : Verdict → List (Fd × Bool)
  | .crash => []
  | .ends _ _ cs | .waits _ cs | .stuck _ cs => cs

namespace Conn

variable {conf : Conf} {c : Conn} {a : Answers} {cs : List (Fd × Bool)}

theorem ends_react {host : CString} {port : Nat} {write : Nat → Int} {r : Reaction} {source : Fd}
    {wire : List Message} (h : c.react host port write r = .ends source wire cs) :
    source = -1 ∨ source = c.fd := by
  cases r with
  | fail => exact .inl (Verdict.ends.inj h).1.symm
  | connected => exact .inr (Verdict.ends.inj h).1.symm
  | send messages accept next =>
      rw [react] at h
      split at h
      · cases h
      · exact .inl (Verdict.ends.inj h).1.symm

/-- A function is called with -1 or with the descriptor of the connection. -/
theorem ends_ready {source : Fd} {wire : List Message}
    (h : c.ready conf a = .ends source wire cs) : source = -1 ∨ source = c.fd := by
  rw [ready] at h
  split at h
  · dsimp only at h
    have hends := ends_react h
    exact hends
  · next via l _ =>
      split at h
      · cases via with
        | none => exact .inr (Verdict.ends.inj h).1.symm
        | some via =>
            rw [resolved] at h
            split at h
            · exact ends_react h
            · exact .inl (Verdict.ends.inj h).1.symm
      · rcases l with _ | ⟨_, _ | ⟨_, _⟩⟩
        · cases h
        · exact .inl (Verdict.ends.inj h).1.symm
        · rw [retry] at h
          split at h <;> cases h

/-- The connection to the last address of a proxy has failed, or the others fail at once. -/
def ClosesClosed (c : Conn) (a : Answers) : Prop :=
  ¬ a.connected ∧ ∃ via addr rest, c.stage = .connecting via (addr :: rest) ∧
    (rest = [] ∧ via ≠ none ∨ rest ≠ [] ∧ (firstPending a.attempt rest).2 = none)

theorem closes_react {host : CString} {port : Nat} {write : Nat → Int} {r : Reaction} :
    ∀ x ∈ (c.react host port write r).closes, x.2 := by
  cases r with
  | fail => exact List.forall_mem_singleton.mpr rfl
  | connected => exact List.forall_mem_nil _
  | send messages accept next =>
      rw [react]
      split
      · exact List.forall_mem_nil _
      · exact List.forall_mem_singleton.mpr rfl

theorem closes_resolved {via : Option (ProxyFunc × CString × Nat)} :
    ∀ x ∈ (c.resolved conf a via).closes, x.2 := by
  cases via with
  | none => exact List.forall_mem_nil _
  | some via =>
      rw [resolved]
      split
      · exact closes_react
      · exact List.forall_mem_singleton.mpr rfl

/-- A connection closes its own descriptor once, but for two failures. -/
theorem closes_ready_iff : (∀ x ∈ (c.ready conf a).closes, x.2) ↔ ¬ c.ClosesClosed a := by
  rw [ready, ClosesClosed]
  cases c.stage with
  | handshake host port f =>
      refine iff_of_true closes_react ?_
      rintro ⟨-, _, _, _, ⟨⟩, -⟩
  | connecting via l =>
      dsimp only
      split
      · next hconn => exact iff_of_true closes_resolved fun h ↦ h.1 hconn
      · next hconn =>
          rcases l with _ | ⟨addr, _ | ⟨next, rest⟩⟩
          · refine iff_of_true (List.forall_mem_nil _) ?_
            rintro ⟨-, _, _, _, ⟨⟩, -⟩
          · rw [retry]
            by_cases hvia : via = none
            · rw [if_pos hvia]
              refine iff_of_true (List.forall_mem_singleton.mpr rfl) ?_
              rintro ⟨-, _, _, _, ⟨⟩, ⟨-, h⟩ | ⟨h, -⟩⟩
              · exact h hvia
              · exact h rfl
            · rw [if_neg hvia]
              refine iff_of_false ?_ fun h ↦ h ⟨hconn, via, addr, [], rfl, .inl ⟨rfl, hvia⟩⟩
              exact fun h ↦ Bool.false_ne_true (h (c.fd, false) (by simp [Verdict.closes]))
          · rw [retry]
            split
            · next fd left htried =>
                refine iff_of_true ?_ ?_
                · intro x hx
                  rcases List.mem_append.mp hx with hx | hx
                  · exact all_wereOpen x hx
                  · rcases List.mem_cons.mp hx with rfl | hx
                    · rfl
                    · obtain rfl := List.mem_singleton.mp hx
                      rfl
                · rintro ⟨-, _, _, _, ⟨⟩, ⟨⟨⟩, -⟩ | ⟨-, h⟩⟩
                  rw [htried] at h
                  cases h
            · next htried =>
                refine iff_of_false ?_ fun h ↦
                  h ⟨hconn, via, addr, next :: rest, rfl, .inr ⟨List.cons_ne_nil _ _, htried⟩⟩
                exact fun h ↦ Bool.false_ne_true (h (-1, false) (by simp [Verdict.closes]))

end Conn

end Proxy

namespace World

variable {conf : Conf} {w w' : World} {a : Nat} {p : PHB} {c : Conn} {O : Finset Fd} {fd : Fd}
  {S : Fd → Prop} {e : Event} {es : List Event}

/-! ## Descriptors that are open -/

/-- A record that lives has the descriptor, or its owner was called with it. -/
def Owned (w : World) (fd : Fd) : Prop :=
  (∃ a p, w.heap a = some p ∧ p.fd = fd) ∨ ∃ a f, (a, .called f fd) ∈ w.ended

/-- Every open descriptor is one of `S` or has an owner. -/
def Accounted (S : Fd → Prop) (w : World) : Prop := ∀ fd ∈ w.openFds, S fd ∨ Owned w fd

theorem Accounted.of_owned (hacc : Accounted S w)
    (hnew : ∀ fd ∈ w'.openFds, fd ∈ w.openFds ∨ S fd ∨ Owned w' fd)
    (hold : ∀ fd ∈ w'.openFds, Owned w fd → Owned w' fd) : Accounted S w' := by
  intro fd hfd
  rcases hnew fd hfd with hopen | hnew
  · exact (hacc fd hopen).imp_right (hold fd hfd)
  · exact hnew

theorem Holds.owned {x : Option (Watch (Handler × Nat))} {wire : List Message}
    {cs : List (Fd × Bool)} (hh : Holds w w' a p x wire O cs)
    (hfd : (w.heap a).map PHB.fd = some p.fd) (h : Owned w fd) : Owned w' fd := by
  rcases h with ⟨b, q, hq, rfl⟩ | ⟨b, f, hb⟩
  · by_cases hba : b = a
    · rw [hba] at hq
      rw [hq, Option.map_some] at hfd
      exact .inl ⟨a, p, hh.heap_self, (Option.some.inj hfd).symm⟩
    · exact .inl ⟨b, q, (hh.heap_of_ne hba).trans hq, rfl⟩
  · exact .inr ⟨b, f, hh.ended ▸ hb⟩

/-- A record is freed whose descriptor was closed or handed to its owner. -/
theorem Gone.owned {o : Outcome} {wire : List Message} {cs : List (Fd × Bool)} {fd' : Fd}
    (hg : Gone w w' a fd' o wire O cs) (hfd : (w.heap a).map PHB.fd = some fd')
    (hself : fd ≠ fd' ∨ ∃ f, o = .called f fd) (h : Owned w fd) : Owned w' fd := by
  have hended : ∀ {r}, r ∈ w.ended ++ [(a, o)] → r ∈ w'.ended := fun hr ↦ hg.ended ▸ hr
  rcases h with ⟨b, q, hq, rfl⟩ | ⟨b, f, hb⟩
  · by_cases hba : b = a
    · rw [hba] at hq
      rw [hq, Option.map_some] at hfd
      rcases hself with hne | ⟨f, rfl⟩
      · exact absurd (Option.some.inj hfd) hne
      · exact .inr ⟨a, f, hended (List.mem_append_right _ (List.mem_singleton_self _))⟩
    · exact .inl ⟨b, q, (hg.heap_of_ne hba).trans hq, rfl⟩
  · exact .inr ⟨b, f, hended (List.mem_append_left _ hb)⟩

/-- **One step.** -/
theorem Accounted.step (hacc : Accounted S w) (h : Inv w) (hadm : Admissible w e)
    (hS : ∀ fd, e = .opened fd → S fd) (hw : World.step conf w e = some w') :
    Accounted S w' := by
  have hcases : StepEffect conf w e (World.step conf w e) := step_cases h hadm
  rw [hw] at hcases
  have hclose : ∀ fd, Accounted S (w.closesocket fd) := fun fd fd' hfd' ↦
    hacc fd' (Finset.mem_of_mem_erase hfd')
  cases hcases with
  | rejected => exact hacc
  | @started _ _ _ _ _ c _ p _ _ _ _ _ _ hst =>
      have hself : w'.heap w.next = some p := by rw [hst.heap, Function.update_self]
      refine hacc.of_owned (fun fd hfd ↦ ?_) fun fd _ howned ↦ ?_
      · rw [hst.openFds] at hfd
        rcases Finset.mem_insert.mp hfd with rfl | hfd
        · exact .inr (.inr (.inl ⟨_, p, hself, hst.shows.fd⟩))
        · exact .inl hfd
      · rcases howned with ⟨b, q, hq, rfl⟩ | ⟨b, f, hb⟩
        · exact .inl ⟨b, q, (hst.heap_of_ne (h.lt_next hq).ne).trans hq, rfl⟩
        · exact .inr ⟨b, f, hst.ended ▸ hb⟩
  | refused hr =>
      refine hacc.of_owned (fun fd hfd ↦ .inl (hr.openFds ▸ hfd)) fun fd _ howned ↦ ?_
      rw [Owned, hr.heap, hr.ended]
      exact howned.imp_right fun ⟨b, f, hb⟩ ↦ ⟨b, f, List.mem_append_left _ hb⟩
  | disconnected hmem hhash hg =>
      refine hacc.of_owned (fun fd hfd ↦ ?_) fun fd hfd howned ↦ ?_
      · rw [hg.openFds] at hfd
        exact .inl (Finset.mem_of_mem_erase hfd)
      · rw [hg.openFds] at hfd
        exact hg.owned (hhash ▸ h.table.value _ hmem) (.inl (Finset.ne_of_mem_erase hfd)) howned
  | unknown _ => exact hclose _
  | asleep _ => exact hacc
  | dropped _ _ => exact hacc
  | @woken x ans p c _ hx hopen hp hs hwire he =>
      have hfd : (w.heap x.closure.2).map PHB.fd = some c.fd := by rw [hp, Option.map_some, hs.fd]
      revert he
      cases hv : c.ready conf ans with
      | crash => exact fun he : some w' = none ↦ absurd he (Option.some_ne_none w')
      | ends source wire cs =>
          rintro ⟨_, ⟨⟩, hg⟩
          refine hacc.of_owned (fun fd hmem ↦ ?_) fun fd hmem howned ↦ ?_
          · rw [hg.openFds] at hmem
            split at hmem
            · exact .inl (Finset.mem_of_mem_erase hmem)
            · exact .inl hmem
          · rw [hg.openFds] at hmem
            refine hg.owned hfd ?_ howned
            rcases Conn.ends_ready hv with rfl | rfl
            · rw [if_pos rfl] at hmem
              exact .inl (Finset.ne_of_mem_erase hmem)
            · by_cases hne : fd = c.fd
              · exact .inr ⟨c.func, by rw [hne]⟩
              · exact .inl hne
      | waits c' cs =>
          rintro ⟨_, q, y, ⟨⟩, hh, hs', -⟩
          have hsame : q.fd = c.fd := hs'.fd.trans (Conn.ready_waits_same hv).1
          exact hacc.of_owned (fun fd hmem ↦ .inl (hh.openFds ▸ hmem)) fun fd _ howned ↦
            hh.owned (hsame ▸ hfd) howned
      | stuck c' cs =>
          rintro ⟨_, q, y, ⟨⟩, hh, hs', -⟩
          have hsame : q.fd = c.fd := hs'.fd.trans (Conn.ready_stuck_same hv).1
          refine hacc.of_owned (fun fd hmem ↦ ?_) fun fd _ howned ↦ hh.owned (hsame ▸ hfd) howned
          rw [hh.openFds] at hmem
          exact .inl (Finset.mem_of_mem_erase hmem)
  | opened _ _ =>
      refine hacc.of_owned (fun fd hfd ↦ ?_) fun fd _ howned ↦ howned
      rcases Finset.mem_insert.mp hfd with rfl | hfd
      · exact .inr (.inl (hS _ rfl))
      · exact .inl hfd
  | closed => exact hclose _

theorem accounted_run (hacc : Accounted S w) (h : Inv w) (hadm : Along conf Admissible w es)
    (hS : ∀ fd, .opened fd ∈ es → S fd) : ∀ w' ∈ run conf w es, Accounted S w' := by
  induction es generalizing w with
  | nil =>
      rintro _ ⟨⟩
      exact hacc
  | cons e es ih =>
      obtain ⟨he, hadm⟩ := hadm
      rw [run, List.foldl_cons, crashing_some]
      rw [crashing_some] at hadm
      cases hw : step conf w e with
      | none =>
          intro w' hw'
          rw [foldl_crashing_none] at hw'
          cases hw'
      | some v =>
          rw [hw] at hadm
          exact ih (hacc.step h (he w rfl) (fun fd hfd ↦ hS fd (hfd ▸ List.mem_cons_self ..)) hw)
            (h.step (he w rfl) hw) hadm fun fd hfd ↦ hS fd (List.mem_cons_of_mem _ hfd)

/-- **No leak.**  A descriptor that is open was open before or opened by others, or belongs to
a record that lives, or its owner was called with it. -/
theorem openFds_accounted (hO : ∀ fd ∈ O, 0 ≤ fd) (hadm : Along conf Admissible (init O) es) :
    ∀ w ∈ run conf (init O) es, ∀ fd ∈ w.openFds, (fd ∈ O ∨ .opened fd ∈ es) ∨
      (∃ a p, w.heap a = some p ∧ p.fd = fd) ∨ ∃ a f, (a, .called f fd) ∈ w.ended :=
  accounted_run (S := fun fd ↦ fd ∈ O ∨ Event.opened fd ∈ es) (fun _ hfd ↦ .inl (.inl hfd))
    (inv_init hO) hadm fun _ hfd ↦ .inr hfd

theorem openFds_accounted_one : ∃ w ∈ run .initial (init {0, 1, 2}) [connectH],
    5 ∈ w.openFds ∧ (((5 : Fd) ∈ ({0, 1, 2} : Finset Fd) ∨ .opened 5 ∈ [connectH]) ∨
      (∃ a p, w.heap a = some p ∧ p.fd = 5) ∨ ∃ a f, (a, .called f 5) ∈ w.ended) := by
  have hopen : (run .initial (init {0, 1, 2}) [connectH]).map openFds = some {5, 0, 1, 2} := by
    decide
  obtain ⟨w, hw, hopen⟩ := Option.map_eq_some_iff.mp hopen
  have hmem : 5 ∈ w.openFds := by
    rw [hopen]
    decide
  exact ⟨w, hw, hmem, openFds_accounted (by decide) (along_fine []) w hw 5 hmem⟩

/-! ## Descriptors that are closed -/

theorem Pending.gaiCur (h : Pending w a c) {via : Option (ProxyFunc × CString × Nat)}
    {l : List SockAddr} (hstage : c.stage = .connecting via l) :
    ∃ p, w.heap a = some p ∧ p.gaiCur = l := by
  obtain ⟨p, x, hp, -, hs, -⟩ := h
  have hsh : ShowsStage p x (.connecting via l) := hstage ▸ hs.stage
  cases via with
  | none => exact ⟨p, hp, hsh.2.1⟩
  | some via => exact ⟨p, hp, hsh.2.1⟩

/-- A descriptor is closed that is not open. -/
def ClosesClosed (w : World) : Event → Prop
  | .ready tag ans => ∃ x ∈ w.loop.watches, x.tag = tag ∧ x.fd ∈ w.openFds ∧
      ∃ c, Pending w x.closure.2 c ∧ c.ClosesClosed ans
  | .disconnect fd | .closed fd => fd ∉ w.openFds
  | _ => False

/-- **One step.** -/
theorem closes_step_iff (h : Inv w) (hadm : Admissible w e) (hw : ∀ r ∈ w.closes, r.2) :
    (∃ w', step conf w e = some w' ∧ ∀ r ∈ w'.closes, r.2) ↔
      ¬ NullAddress w e ∧ ¬ ClosesClosed w e := by
  have hmore : ∀ {w' : World} {cs : List (Fd × Bool)}, w'.closes = w.closes ++ cs →
      ((∀ r ∈ w'.closes, r.2) ↔ ∀ r ∈ cs, r.2) := by
    intro w' cs hcs
    rw [hcs, List.forall_mem_append, and_iff_right hw]
  have hone : ∀ {w' : World}, (∃ v, some w' = some v ∧ ∀ r ∈ v.closes, r.2) ↔
      ∀ r ∈ w'.closes, r.2 := fun {w'} ↦ by simp
  have hclose : ∀ fd, (∃ v, some (w.closesocket fd) = some v ∧ ∀ r ∈ v.closes, r.2) ↔
      fd ∈ w.openFds := by
    intro fd
    rw [hone, hmore rfl, List.forall_mem_singleton, decide_eq_true_eq]
  have hnull : (step conf w e).isSome ↔ ¬ NullAddress w e := isSome_step_iff h hadm
  have hcases : StepEffect conf w e (step conf w e) := step_cases h hadm
  generalize step conf w e = r at hcases hnull
  cases hcases with
  | rejected => exact iff_of_true ⟨w, rfl, hw⟩ ⟨id, id⟩
  | started _ _ _ _ hst hcs =>
      exact iff_of_true (hone.mpr ((hmore hst.closes).mpr hcs)) ⟨id, id⟩
  | refused hr hcs => exact iff_of_true (hone.mpr ((hmore hr.closes).mpr hcs)) ⟨id, id⟩
  | @disconnected fd _ _ _ _ hg =>
      rw [hone, hmore hg.closes, List.forall_mem_singleton, decide_eq_true_eq]
      exact ⟨fun h ↦ ⟨id, fun hno ↦ hno h⟩, fun h ↦ not_not.mp h.2⟩
  | @unknown fd _ =>
      rw [hclose]
      exact ⟨fun h ↦ ⟨id, fun hno ↦ hno h⟩, fun h ↦ not_not.mp h.2⟩
  | @asleep tag ans hno =>
      refine iff_of_true ⟨w, rfl, hw⟩ ⟨hnull.mp rfl, ?_⟩
      rintro ⟨x, hx, htag, hopen, -⟩
      exact hno x hx htag hopen
  | @dropped x ans hx hclosed =>
      refine iff_of_true ⟨_, rfl, hw⟩ ⟨hnull.mp rfl, ?_⟩
      rintro ⟨y, hy, htag, hopen, -⟩
      exact hclosed (EventLoop.eq_of_tag_eq hy hx htag ▸ hopen)
  | @woken x ans p c r hx hopen hp hs hwire he =>
      have hc : Pending w x.closure.2 c := ⟨p, x, hp, hx, hs, hwire⟩
      have hiff : ClosesClosed w (.ready x.tag ans) ↔ c.ClosesClosed ans := by
        constructor
        · rintro ⟨y, hy, htag, -, d, hd, hcl⟩
          obtain rfl := EventLoop.eq_of_tag_eq hy hx htag
          rwa [hc.unique h hd]
        · exact fun hcl ↦ ⟨x, hx, rfl, hopen, c, hc, hcl⟩
      have hcloses : (∀ r ∈ (c.ready conf ans).closes, r.2) ↔ ¬ c.ClosesClosed ans :=
        Conn.closes_ready_iff
      rw [hiff, ← hnull, ← hcloses]
      revert he
      cases c.ready conf ans with
      | crash =>
          intro (he : r = none)
          rw [he]
          exact iff_of_false (by rintro ⟨_, ⟨⟩, -⟩) fun h ↦ Bool.false_ne_true h.1
      | ends source wire cs =>
          rintro ⟨w', rfl, hg⟩
          rw [hone, hmore hg.closes]
          exact (and_iff_right rfl).symm
      | waits c' cs =>
          rintro ⟨w', q, y, rfl, hh, -⟩
          rw [hone, hmore hh.closes]
          exact (and_iff_right rfl).symm
      | stuck c' cs =>
          rintro ⟨w', q, y, rfl, hh, -⟩
          rw [hone, hmore hh.closes]
          exact (and_iff_right rfl).symm
  | opened _ _ => exact iff_of_true ⟨_, rfl, hw⟩ ⟨id, id⟩
  | @closed fd =>
      rw [hclose]
      exact ⟨fun h ↦ ⟨id, fun hno ↦ hno h⟩, fun h ↦ not_not.mp h.2⟩

/-- **Runs.**  Only open descriptors are closed exactly as long as no connection through a proxy
fails with its last address, no retry runs out of addresses, and nobody gives up a descriptor
that is closed. -/
theorem closes_open_iff (hO : ∀ fd ∈ O, 0 ≤ fd) (hadm : Along conf Admissible (init O) es) :
    Always (crashing (step conf)) (fun t ↦ ∃ w, t = some w ∧ ∀ r ∈ w.closes, r.2)
        (some (init O)) es ↔
      Along conf (fun w e ↦ ¬ NullAddress w e ∧ ¬ ClosesClosed w e) (init O) es := by
  refine Steps.always_iff (P := fun t ↦ ∀ w ∈ t, Inv w) (fun t e ht hadm ↦ ?_)
    (fun t e ht hadm hq ↦ ?_) ?_ ⟨_, rfl, List.forall_mem_nil _⟩ hadm
  · exact forall_mem_crashing fun w hw w' hw' ↦ (ht w hw).step (hadm w hw) hw'
  · obtain ⟨w, rfl, hw⟩ := hq
    rw [crashing_some, closes_step_iff (ht w rfl) (hadm w rfl) hw]
    simp
  · rintro _ ⟨⟩
    exact inv_init hO

/-- A retry while there is one more address. -/
theorem closes_retried {tag : Nat}
    (h : ∀ x ∈ w.loop.watches, x.tag = tag →
      (w.heap x.closure.2).map PHB.gaiCur = some ["h", "i"]) :
    ¬ NullAddress w (retried tag fd) ∧ ¬ ClosesClosed w (retried tag fd) := by
  have hleft : ∀ x ∈ w.loop.watches, x.tag = tag → ∀ c via l, Pending w x.closure.2 c →
      c.stage = .connecting via l → l = ["h", "i"] := by
    intro x hx htag c via l hc hstage
    obtain ⟨p, hp, rfl⟩ := hc.gaiCur hstage
    have hcur := h x hx htag
    rw [hp] at hcur
    exact Option.some.inj hcur
  constructor
  · rintro ⟨x, hx, htag, -, -, c, via, hc, hstage⟩
    cases hleft x hx htag c via [] hc hstage
  · rintro ⟨x, hx, htag, -, c, hc, -, via, addr, rest, hstage, hfails⟩
    obtain ⟨rfl, rfl⟩ := List.cons.inj (hleft x hx htag c via _ hc hstage)
    rcases hfails with ⟨⟨⟩, -⟩ | ⟨-, ⟨⟩⟩

theorem closes_fine {tag : Nat} {stream : List UInt8} :
    ¬ NullAddress w (fine tag stream) ∧ ¬ ClosesClosed w (fine tag stream) := by
  constructor
  · rintro ⟨x, -, -, -, hconn, -⟩
    exact hconn rfl
  · rintro ⟨x, -, -, -, c, -, hconn, -⟩
    exact hconn rfl

/-- The descriptors 6 and 9 are closed in the retry, and 5 by `proxy_disconnect`. -/
theorem closes_open_one :
    (run (proxiedConf 3) (init {0, 1, 2}) twoAtOnce).map closes =
        some [(6, true), (9, true), (5, true)] ∧
      Always (crashing (step (proxiedConf 3))) (fun t ↦ ∃ w, t = some w ∧ ∀ r ∈ w.closes, r.2)
        (some (init {0, 1, 2})) twoAtOnce := by
  refine ⟨by decide, (closes_open_iff (by decide) admissible_twoAtOnce).mpr ?_⟩
  refine along_twoAtOnce ⟨id, id⟩ (fun _ _ ↦ ⟨id, id⟩) (fun w hw ↦ closes_retried ?_)
    (fun w hw ↦ ⟨id, ?_⟩) fun _ _ _ ↦ closes_fine
  · have hleft : ∀ w ∈ run (proxiedConf 3) (init {0, 1, 2}) [connectH, connectTwo],
        ∀ x ∈ w.loop.watches, x.tag = 2 →
          (w.heap x.closure.2).map PHB.gaiCur = some ["h", "i"] := by decide
    exact hleft w hw
  · have hopen : ∀ w ∈ run (proxiedConf 3) (init {0, 1, 2})
        [connectH, connectTwo, retried 2 9, fine 1 []], 5 ∈ w.openFds := by decide
    exact not_not_intro (hopen w hw)

end World

end TelepathyFacebook
