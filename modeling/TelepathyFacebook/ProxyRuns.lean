import TelepathyFacebook.ProxyInv

/-!
# Runs of the proxy code

What holds over any sequence of events of `Proxy`, whatever connections they belong to, where
the kernel gives out positive descriptors that are not open.

* `run_safe_iff`: a run crashes only where `proxy_connected` finds no address in its record;
  no record is used once it is freed.
* `run_ended_once`: every record that was made lives, or its function was called once, or it
  was given up, and never two of these.
* `healthy_iff`: the connections wait for descriptors of their own, under which the table
  knows them, exactly as long as no retry runs out of addresses and nobody else closes a
  descriptor of theirs.
-/

namespace TelepathyFacebook

open Proxy Ledger Runs

namespace World

variable {conf : Conf} {w w' : World} {a b : Nat} {p q : PHB} {c d : Conn}
  {x : Watch (Handler × Nat)} {wire : List Message} {O : Finset Fd} {cs : List (Fd × Bool)}
  {fd : Fd} {o : Outcome} {host : CString} {port : Int} {e : Event} {es : List Event}

/-- The state after a run; `none` is a crash. -/
def run (conf : Conf) (w : World) (es : List Event) : Option World :=
  es.foldl (crashing (step conf)) (some w)

/-- Every event of a run meets `ok` in the state it is taken in. -/
def Along (conf : Conf) (ok : World → Event → Prop) (w : World) (es : List Event) : Prop :=
  Steps (crashing (step conf)) (fun t e ↦ ∀ w ∈ t, ok w e) (some w) es

/-- A condition on the events alone. -/
theorem steps_of_events {ok : World → Event → Prop} (h : ∀ e ∈ es, ∀ w, ok w e)
    (t : Option World) : Steps (crashing (step conf)) (fun t e ↦ ∀ w ∈ t, ok w e) t es := by
  induction es generalizing t with
  | nil => trivial
  | cons e es ih =>
      exact ⟨fun w _ ↦ h e (List.mem_cons_self ..) w,
        ih (fun e he ↦ h e (List.mem_cons_of_mem _ he)) _⟩

/-- A run and what comes after it. -/
theorem Along.split {ok : World → Event → Prop} {es' : List Event}
    (h : Along conf ok w (es ++ es')) (hw : w' ∈ run conf w es) :
    Along conf ok w es ∧ Along conf ok w' es' := by
  obtain ⟨hes, hes'⟩ := (steps_append (some w) es es').mp h
  have hrun : es.foldl (crashing (step conf)) (some w) = some w' := hw
  rw [hrun] at hes'
  exact ⟨hes, hes'⟩

/-- A descriptor is ready and everything goes well, with what can be read. -/
def fine (tag : Nat) (stream : List UInt8) : Event :=
  .ready tag ⟨true, fun _ ↦ .noSocket, true, fun _ ↦ none, fun _ ↦ 400, stream, 0⟩

/-- A proxy of some type on the host `h`, with a user `u` and a password `p`. -/
def proxiedConf (type : Int) : Conf where
  proxyhost := ⟨[104], by decide⟩
  proxyport := 1080
  proxytype := type
  proxyuser := ⟨[117], by decide⟩
  proxypass := ⟨[112], by decide⟩
  length_proxyuser := by decide
  length_proxypass := by decide

/-- A connection to port 80 of the host `h`, which has one address. -/
def connectH : Event :=
  .connect (some ⟨[104], by decide⟩) 80 (some 7) (fun _ _ ↦ ["h"]) (fun _ ↦ .pending 5)

/-- Another connection, whose host or proxy has two addresses. -/
def connectTwo : Event :=
  .connect (some ⟨[105], by decide⟩) 443 (some 8) (fun _ _ ↦ ["h", "i"]) (fun _ ↦ .pending 6)

/-- An address of a connection fails, and the next one is tried with another descriptor. -/
def retried (tag : Nat) (fd : Fd) : Event :=
  .ready tag ⟨false, fun _ ↦ .pending fd, true, fun _ ↦ none, fun _ ↦ 400, [], 0⟩

/-- Two connections at once through a SOCKS5 proxy: the second one tries both addresses, the
first is given up halfway, and the second one gets through. -/
def twoAtOnce : List Event :=
  [connectH, connectTwo, retried 2 9, fine 1 [], .disconnect 5, fine 4 [], fine 6 [5, 2],
    fine 7 [1, 0], fine 8 [5, 0, 0, 1, 0, 0, 0, 0, 0, 0]]

theorem fresh_noSocket : Fresh O fun _ ↦ .noSocket := by
  rintro _ _ (⟨⟨⟩⟩ | ⟨⟨⟩⟩)

theorem fresh_pending (hpos : 0 < fd) (hfd : fd ∉ O) : Fresh O fun _ ↦ .pending fd := by
  rintro _ _ (⟨⟨⟩⟩ | ⟨⟨⟩⟩)
  exact ⟨hpos, hfd⟩

theorem admissible_connectH : Admissible (init {0, 1, 2}) connectH :=
  fresh_pending (by decide) (by decide)

theorem along_connectH {ok : World → Event → Prop} (hok : ok (init {0, 1, 2}) connectH)
    (h : ∀ e ∈ es, ∀ w, ok w e) : Along conf ok (init {0, 1, 2}) (connectH :: es) := by
  refine ⟨?_, steps_of_events h _⟩
  rintro _ ⟨⟩
  exact hok

theorem admissible_fine (tag : Nat) (stream : List UInt8) : Admissible w (fine tag stream) :=
  fresh_noSocket

/-- A connection in a run in which everything goes well. -/
theorem along_fine (streams : List (Nat × List UInt8)) :
    Along conf Admissible (init {0, 1, 2}) (connectH :: streams.map fun s ↦ fine s.1 s.2) := by
  refine along_connectH admissible_connectH fun e he w ↦ ?_
  obtain ⟨s, -, rfl⟩ := List.mem_map.mp he
  exact admissible_fine _ _

/-- The events of `twoAtOnce` that depend on the state are looked at in the state. -/
theorem along_twoAtOnce {ok : World → Event → Prop} (hfirst : ok (init {0, 1, 2}) connectH)
    (hsecond : ∀ w ∈ run conf (init {0, 1, 2}) [connectH], ok w connectTwo)
    (hretry : ∀ w ∈ run conf (init {0, 1, 2}) [connectH, connectTwo], ok w (retried 2 9))
    (hclose : ∀ w ∈ run conf (init {0, 1, 2}) [connectH, connectTwo, retried 2 9, fine 1 []],
      ok w (.disconnect 5))
    (hfine : ∀ tag stream w, ok w (fine tag stream)) :
    Along conf ok (init {0, 1, 2}) twoAtOnce := by
  refine ⟨?_, hsecond, hretry, fun w _ ↦ hfine _ _ w, hclose, steps_of_events ?_ _⟩
  · rintro _ ⟨⟩
    exact hfirst
  · simp [hfine]

theorem admissible_twoAtOnce :
    Along (proxiedConf 3) Admissible (init {0, 1, 2}) twoAtOnce := by
  refine along_twoAtOnce admissible_connectH (fun w hw ↦ ?_) (fun w hw ↦ ?_)
    (fun _ _ ↦ trivial) fun tag stream _ ↦ admissible_fine tag stream
  · have hfresh : ∀ w ∈ run (proxiedConf 3) (init {0, 1, 2}) [connectH], 6 ∉ w.openFds := by
      decide
    exact fresh_pending (by decide) (hfresh w hw)
  · have hfresh : ∀ w ∈ run (proxiedConf 3) (init {0, 1, 2}) [connectH, connectTwo],
        9 ∉ w.openFds := by decide
    exact fresh_pending (by decide) (hfresh w hw)

/-! ## Safety -/

theorem ShowsStage.unique {s s' : Stage} (h : ShowsStage p x s) (h' : ShowsStage p x s') :
    s = s' := by
  have hread : ∀ {f f' : ReadFunc}, x.closure.1 = .read f → x.closure.1 = .read f' → f = f' :=
    fun h h' ↦ Handler.read.inj (h.symm.trans h')
  have hne : ∀ {f : ReadFunc}, x.closure.1 = .proxyConnected → x.closure.1 ≠ .read f :=
    fun h h' ↦ Handler.noConfusion (h.symm.trans h')
  match s, s', h, h' with
  | .connecting none l, .connecting none l', ⟨_, hl, _⟩, ⟨_, hl', _⟩ => rw [← hl, hl']
  | .connecting none l, .connecting (some (f, host, port)) l', ⟨_, _, hf⟩, ⟨_, _, hf', _⟩ =>
      exact absurd (hf.symm.trans hf') (Option.some_ne_none f).symm
  | .connecting (some (f, host, port)) l, .connecting none l', ⟨_, _, hf, _⟩, ⟨_, _, hf'⟩ =>
      exact absurd (hf'.symm.trans hf) (Option.some_ne_none f).symm
  | .connecting (some (f, host, port)) l, .connecting (some (f', host', port')) l',
    ⟨_, hl, hf, hh, hp⟩, ⟨_, hl', hf', hh', hp'⟩ =>
      obtain rfl := Option.some.inj (hf.symm.trans hf')
      obtain rfl := Option.some.inj (hh.symm.trans hh')
      rw [← hl, ← hl', ← hp, ← hp']
  | .handshake host port f, .handshake host' port' f', ⟨hx, hh, hp⟩, ⟨hx', hh', hp'⟩ =>
      obtain rfl := Option.some.inj (hh.symm.trans hh')
      rw [hread hx hx', ← hp, ← hp']
  | .connecting none _, .handshake .., ⟨hx, _⟩, ⟨hx', _⟩ => exact absurd hx' (hne hx)
  | .connecting (some _) _, .handshake .., ⟨hx, _⟩, ⟨hx', _⟩ => exact absurd hx' (hne hx)
  | .handshake .., .connecting none _, ⟨hx, _⟩, ⟨hx', _⟩ => exact absurd hx (hne hx')
  | .handshake .., .connecting (some _) _, ⟨hx, _⟩, ⟨hx', _⟩ => exact absurd hx (hne hx')

/-- A record is one connection. -/
theorem Pending.unique (h : Inv w) (hc : Pending w a c) (hd : Pending w a d) : c = d := by
  obtain ⟨p, x, hp, hx, hs, hwire⟩ := hc
  obtain ⟨q, y, hq, hy, hs', hwire'⟩ := hd
  obtain rfl := Option.some.inj (hp.symm.trans hq)
  obtain rfl := h.watch_unique hx hy (hs'.owner.trans hs.owner.symm)
  obtain ⟨func, fd, stage, wire⟩ := c
  obtain ⟨func', fd', stage', wire'⟩ := d
  obtain rfl : func = func' := Option.some.inj (hs.func.symm.trans hs'.func)
  obtain rfl : fd = fd' := hs.fd.symm.trans hs'.fd
  obtain rfl : wire = wire' := hwire.trans hwire'.symm
  obtain rfl : stage = stage' := hs.stage.unique hs'.stage
  rfl

/-- **A step crashes** only on a NULL address. -/
theorem isSome_step_iff (h : Inv w) (hadm : Admissible w e) :
    (step conf w e).isSome ↔ ¬ NullAddress w e := by
  have hcases : StepEffect conf w e (step conf w e) := step_cases h hadm
  generalize step conf w e = r at hcases
  cases hcases with
  | @woken x ans p c r hx hopen hp hs hwire he =>
      have hpending : Pending w x.closure.2 c := ⟨p, x, hp, hx, hs, hwire⟩
      have hnull : NullAddress w (.ready x.tag ans) ↔ c.ready conf ans = .crash := by
        rw [ready_eq_crash_iff]
        constructor
        · rintro ⟨y, hy, htag, -, hconn, d, via, hd, hstage⟩
          obtain rfl := EventLoop.eq_of_tag_eq hy hx htag
          exact ⟨hconn, via, (hd.unique h hpending) ▸ hstage⟩
        · rintro ⟨hconn, via, hstage⟩
          exact ⟨x, hx, rfl, hopen, hconn, c, via, hpending, hstage⟩
      rw [hnull]
      revert he
      cases c.ready conf ans with
      | crash =>
          intro (he : r = none)
          rw [he]
          exact iff_of_false Bool.false_ne_true fun h ↦ h rfl
      | ends source wire cs =>
          rintro ⟨w', rfl, -⟩
          exact iff_of_true rfl fun h ↦ Verdict.noConfusion h
      | waits c' cs =>
          rintro ⟨w', q, y, rfl, -⟩
          exact iff_of_true rfl fun h ↦ Verdict.noConfusion h
      | stuck c' cs =>
          rintro ⟨w', q, y, rfl, -⟩
          exact iff_of_true rfl fun h ↦ Verdict.noConfusion h
  | asleep hno =>
      refine iff_of_true rfl ?_
      rintro ⟨x, hx, htag, hopen, -⟩
      exact hno x hx htag hopen
  | dropped hx hclosed =>
      refine iff_of_true rfl ?_
      rintro ⟨y, hy, htag, hopen, -⟩
      exact hclosed (EventLoop.eq_of_tag_eq hy hx htag ▸ hopen)
  | _ => exact iff_of_true rfl id

theorem isSome_run_iff (h : Inv w) (hadm : Along conf Admissible w es) :
    ((run conf w es).isSome ↔ Along conf (fun w e ↦ ¬ NullAddress w e) w es) ∧
      ∀ w' ∈ run conf w es, Inv w' :=
  isSome_foldl_crashing_of_invariant
    (fun w e _ (h : Inv w) (hadm : Admissible w e) (hw : step conf w e = some _) ↦ h.step hadm hw)
    (fun _ _ h hadm ↦ isSome_step_iff h hadm) h hadm

/-- **Safety.**  A run crashes only where a connection that has run out of addresses is woken
once more; it never uses a record that was freed. -/
theorem run_safe_iff (hO : ∀ fd ∈ O, 0 ≤ fd) (hadm : Along conf Admissible (init O) es) :
    (run conf (init O) es).isSome ↔ Along conf (fun w e ↦ ¬ NullAddress w e) (init O) es :=
  (isSome_run_iff (inv_init hO) hadm).1

theorem run_safe_one : (run .initial (init {0, 1, 2}) [connectH, fine 1 []]).isSome :=
  (run_safe_iff (by decide) (along_fine [(1, [])])).mpr <|
    along_connectH id fun e he w ↦ by
      obtain rfl := List.mem_singleton.mp he
      rintro ⟨x, -, -, -, hconn, -⟩
      exact hconn rfl

/-- **Exactly once.**  A record that was made lives, or has ended in one way: its function was
called once, or `proxy_disconnect` gave it up, or `proxy_connect` returned -1. -/
theorem run_ended_once (hO : ∀ fd ∈ O, 0 ≤ fd) (hadm : Along conf Admissible (init O) es) :
    ∀ w ∈ run conf (init O) es, (w.ended.map Prod.fst).Nodup ∧
      ∀ a, (∃ o, (a, o) ∈ w.ended) ↔ a < w.next ∧ w.heap a = none := by
  intro w hw
  have h : Inv w := (isSome_run_iff (inv_init hO) hadm).2 w hw
  refine ⟨h.books.nodup, fun a ↦ ?_⟩
  have hmem : (∃ o, (a, o) ∈ w.ended) ↔ a ∈ w.ended.map Prod.fst := by simp
  rw [hmem, h.books.mem_ended_iff, Option.not_isSome_iff_eq_none]

theorem run_ended_once_one :
    ∃ w ∈ run .initial (init {0, 1, 2}) [connectH, fine 1 []], ∃ o, (0, o) ∈ w.ended := by
  have hfreed : (run .initial (init {0, 1, 2}) [connectH, fine 1 []]).map
      (fun w ↦ (w.next, w.heap 0)) = some (1, none) := by decide
  obtain ⟨w, hw, hfreed⟩ := Option.map_eq_some_iff.mp hfreed
  obtain ⟨hnext, hheap⟩ := Prod.mk.inj hfreed
  exact ⟨w, hw, ((run_ended_once (by decide) (along_fine [(1, [])]) w hw).2 0).mpr
    ⟨hnext ▸ Nat.one_pos, hheap⟩⟩

/-! ## Connections that wait for their own descriptors -/

/-- The record waits for a descriptor that is open, under which the table knows it, and has an
address left to try. -/
structure Sound (w : World) (a : Nat) (p : PHB) : Prop where
  isOpen : p.fd ∈ w.openFds
  entry : ⟨p.fd, a, a⟩ ∈ w.phbHash
  conn : ∃ c, Pending w a c ∧ c.Hopeful

def Healthy (w : World) : Prop := ∀ a p, w.heap a = some p → Sound w a p

theorem healthy_init : Healthy (init O) := fun a p hp ↦ by cases hp

/-- A retry fails with every address that is left. -/
def Exhausts (w : World) : Event → Prop
  | .ready tag ans => ∃ x ∈ w.loop.watches, x.tag = tag ∧ x.fd ∈ w.openFds ∧
      ∃ c, Pending w x.closure.2 c ∧ c.Exhausted ans
  | _ => False

/-- Another part of the program closes the descriptor of a connection. -/
def Steals (w : World) : Event → Prop
  | .closed fd => ∃ a p, w.heap a = some p ∧ p.fd = fd
  | _ => False

theorem Pending.heap (h : Pending w a c) : ∃ p, w.heap a = some p ∧ p.fd = c.fd := by
  obtain ⟨p, x, hp, -, hs, -⟩ := h
  exact ⟨p, hp, hs.fd⟩

theorem Healthy.hopeful (hw : Healthy w) (h : Inv w) (hc : Pending w a c) : c.Hopeful := by
  obtain ⟨p, hp, -⟩ := hc.heap
  obtain ⟨d, hd, hhope⟩ := (hw a p hp).conn
  rwa [hc.unique h hd]

/-- Connections have descriptors of their own. -/
theorem Healthy.fd_ne (hw : Healthy w) (h : Inv w) (hp : w.heap a = some p)
    (hq : w.heap b = some q) (hab : b ≠ a) : q.fd ≠ p.fd := by
  intro hfd
  have heq : (⟨q.fd, b, b⟩ : Entry) = ⟨p.fd, a, a⟩ :=
    List.inj_on_of_nodup_map h.table.nodup (hw b q hq).entry (hw a p hp).entry hfd
  exact hab (Entry.mk.inj heq).2.1

/-- The table knows the open descriptors of connections only. -/
theorem Healthy.hash_mem (hw : Healthy w) (h : Inv w) {e : Entry} (he : e ∈ w.phbHash) :
    e.hash ∈ w.openFds := by
  obtain ⟨p, hp, hfd⟩ := Option.map_eq_some_iff.mp (h.table.value e he)
  exact hfd ▸ (hw _ p hp).isOpen

/-- A connection that goes on. -/
theorem Healthy.of_holds (hw : Healthy w)
    (hh : Holds w w' a p (some x) c.wire w.openFds cs) (hs : Shows c a p x)
    (hfd : (w.heap a).map PHB.fd = some c.fd) (hc : c.Hopeful) : Healthy w' := by
  obtain ⟨p₀, hp₀, hfd₀⟩ := Option.map_eq_some_iff.mp hfd
  have howner : ∀ z, some x = some z → z.closure.2 = a := by
    rintro _ ⟨⟩
    exact hs.owner
  intro b q hq
  by_cases hb : b = a
  · rw [hb] at hq ⊢
    obtain rfl := Option.some.inj (hh.heap_self.symm.trans hq)
    have hsound := hw a p₀ hp₀
    have hfd' : p.fd = p₀.fd := hs.fd.trans hfd₀.symm
    refine ⟨?_, ?_, c, ⟨p, x, hq, (hh.watches x).mpr (.inr rfl), hs, ?_⟩, hc⟩
    · rw [hh.openFds, hfd']
      exact hsound.isOpen
    · rw [hh.phbHash, hfd']
      exact hsound.entry
    · rw [hh.wire, Function.update_self]
  · rw [hh.heap_of_ne hb] at hq
    obtain ⟨hopen, hentry, d, hd, hhope⟩ := hw b q hq
    exact ⟨hh.openFds ▸ hopen, hh.phbHash ▸ hentry, d, (hh.pending_iff howner hb).mpr hd, hhope⟩

/-- A connection that ends; its descriptor may be closed. -/
theorem Healthy.of_gone (hw : Healthy w) (h : Inv w) (hg : Gone w w' a fd o wire O cs)
    (hfd : (w.heap a).map PHB.fd = some fd) (hO : w.openFds.erase fd ⊆ O) : Healthy w' := by
  obtain ⟨p, hp, rfl⟩ := Option.map_eq_some_iff.mp hfd
  intro b q hq
  have hb : b ≠ a := by
    rintro rfl
    rw [hg.heap, Function.update_self] at hq
    cases hq
  rw [hg.heap_of_ne hb] at hq
  obtain ⟨hopen, hentry, d, hd, hhope⟩ := hw b q hq
  have hne : q.fd ≠ p.fd := hw.fd_ne h hp hq hb
  refine ⟨?_, ?_, d, (hg.pending_iff hb).mpr hd, hhope⟩
  · rw [hg.openFds]
    exact hO (Finset.mem_erase.mpr ⟨hne, hopen⟩)
  · rw [hg.phbHash]
    exact List.mem_filter.mpr ⟨hentry, decide_eq_true hne⟩

/-- A connection that starts. -/
theorem Healthy.of_started (hw : Healthy w) (h : Inv w) (hst : Started w w' host port c p x cs)
    (hfresh : c.fd ∉ w.openFds) (hwire : c.wire = []) (hc : c.Hopeful) : Healthy w' := by
  have hno : ∀ e ∈ w.phbHash, e.hash ≠ c.fd := by
    rintro e he heq
    exact hfresh (heq ▸ hw.hash_mem h he)
  intro b q hq
  by_cases hb : b = w.next
  · rw [hb] at hq ⊢
    rw [hst.heap, Function.update_self] at hq
    obtain rfl := Option.some.inj hq
    refine ⟨?_, ?_, c, hst.pending ((h.unused _ le_rfl).trans hwire.symm), hc⟩
    · rw [hst.openFds, hst.shows.fd]
      exact Finset.mem_insert_self ..
    · rw [hst.entry hno, hst.shows.fd]
      exact List.mem_append_right _ (List.mem_singleton_self _)
  · rw [hst.heap_of_ne hb] at hq
    obtain ⟨hopen, hentry, d, hd, hhope⟩ := hw b q hq
    refine ⟨?_, ?_, d, (hst.pending_iff hb).mpr hd, hhope⟩
    · rw [hst.openFds]
      exact Finset.mem_insert_of_mem hopen
    · rw [hst.entry hno]
      exact List.mem_append_left _ hentry

theorem Healthy.closesocket (hw : Healthy w) (hno : ∀ a p, w.heap a = some p → p.fd ≠ fd) :
    Healthy (w.closesocket fd) := fun a p hp ↦
  ⟨Finset.mem_erase.mpr ⟨hno a p hp, (hw a p hp).isOpen⟩, (hw a p hp).entry, (hw a p hp).conn⟩

/-- **One step.** -/
theorem healthy_step_iff (h : Inv w) (hw : Healthy w) (hadm : Admissible w e) :
    (∃ w', step conf w e = some w' ∧ Healthy w') ↔ ¬ Exhausts w e ∧ ¬ Steals w e := by
  have hcases : StepEffect conf w e (step conf w e) := step_cases h hadm
  generalize step conf w e = r at hcases
  cases hcases with
  | rejected => exact iff_of_true ⟨w, rfl, hw⟩ ⟨id, id⟩
  | started _ _ hdial hfresh hst =>
      obtain ⟨-, hwire, hhope⟩ := dial_fd hadm hdial
      exact iff_of_true ⟨_, rfl, hw.of_started h hst hfresh hwire hhope⟩ ⟨id, id⟩
  | refused hr =>
      refine iff_of_true ⟨_, rfl, fun a p hp ↦ ?_⟩ ⟨id, id⟩
      obtain ⟨hopen, hentry, c, hc, hhope⟩ := hw a p (hr.heap ▸ hp)
      refine ⟨hr.openFds ▸ hopen, hr.phbHash ▸ hentry, c, ?_, hhope⟩
      rwa [Pending, hr.heap, hr.loop, hr.wire]
  | disconnected hmem hhash hg =>
      exact iff_of_true ⟨_, rfl, hw.of_gone h hg (hhash ▸ h.table.value _ hmem)
        (Finset.Subset.refl _)⟩ ⟨id, id⟩
  | unknown hno =>
      refine iff_of_true ⟨_, rfl, hw.closesocket fun a p hp ↦ ?_⟩ ⟨id, id⟩
      exact hno _ (hw a p hp).entry
  | asleep hno =>
      refine iff_of_true ⟨w, rfl, hw⟩ ⟨?_, id⟩
      rintro ⟨x, hx, htag, hopen, -⟩
      exact hno x hx htag hopen
  | @dropped x ans hx hclosed =>
      obtain ⟨p, c, hp, hs, -⟩ := h.watch x hx
      have hopen := (hw _ p hp).isOpen
      rw [hs.fd, ← hs.watchFd] at hopen
      exact absurd hopen hclosed
  | @woken x ans p c r hx hopen hp hs hwire he =>
      have hfd : (w.heap x.closure.2).map PHB.fd = some c.fd := by rw [hp, Option.map_some, hs.fd]
      have hpending : Pending w x.closure.2 c := ⟨p, x, hp, hx, hs, hwire⟩
      have hhope : c.Hopeful := hw.hopeful h hpending
      have hexhausts : Exhausts w (.ready x.tag ans) ↔
          ∃ c' cs, c.ready conf ans = .stuck c' cs := by
        rw [Conn.ready_eq_stuck_iff]
        constructor
        · rintro ⟨y, hy, htag, -, d, hd, hex⟩
          obtain rfl := EventLoop.eq_of_tag_eq hy hx htag
          rwa [hpending.unique h hd]
        · exact fun hex ↦ ⟨x, hx, rfl, hopen, c, hpending, hex⟩
      rw [hexhausts]
      revert he
      cases hv : c.ready conf ans with
      | crash =>
          obtain ⟨-, via, hstage⟩ := ready_eq_crash_iff.mp hv
          exact absurd hstage (hhope via)
      | ends source wire cs =>
          rintro ⟨w', rfl, hg⟩
          refine iff_of_true ⟨_, rfl, hw.of_gone h hg hfd ?_⟩ ⟨?_, id⟩
          · split
            · exact Finset.Subset.refl _
            · exact Finset.erase_subset _ _
          · rintro ⟨_, _, ⟨⟩⟩
      | waits c' cs =>
          rintro ⟨w', q, y, rfl, hh, hs', -⟩
          have hsame := (Conn.ready_waits_same hv).1
          refine iff_of_true ⟨_, rfl, hw.of_holds hh hs' (hfd.trans (congrArg some hsame.symm))
            (Conn.measure_ready hhope hv).2⟩ ⟨?_, id⟩
          rintro ⟨_, _, ⟨⟩⟩
      | stuck c' cs =>
          rintro ⟨w', q, y, rfl, hh, hs', -⟩
          refine iff_of_false ?_ fun h ↦ h.1 ⟨c', cs, rfl⟩
          rintro ⟨_, ⟨⟩, hw'⟩
          have hopen' := (hw' _ q hh.heap_self).isOpen
          rw [hh.openFds, hs'.fd, (Conn.ready_stuck_same hv).1] at hopen'
          exact Finset.notMem_erase _ _ hopen'
  | opened hpos hfresh =>
      refine iff_of_true ⟨_, rfl, fun a p hp ↦ ?_⟩ ⟨id, id⟩
      exact ⟨Finset.mem_insert_of_mem (hw a p hp).isOpen, (hw a p hp).entry, (hw a p hp).conn⟩
  | @closed fd =>
      by_cases hsteal : Steals w (.closed fd)
      · refine iff_of_false ?_ fun h ↦ h.2 hsteal
        obtain ⟨a, p, hp, rfl⟩ := hsteal
        rintro ⟨_, ⟨⟩, hw'⟩
        exact Finset.notMem_erase _ _ (hw' a p hp).isOpen
      · exact iff_of_true ⟨_, rfl, hw.closesocket fun a p hp hfd ↦ hsteal ⟨a, p, hp, hfd⟩⟩
          ⟨id, hsteal⟩

/-- **Runs.**  Every connection waits for a descriptor of its own, which is open and under which
the table knows it, exactly as long as no retry fails with every address that is left and
no descriptor of a connection is closed by others. -/
theorem healthy_iff (hO : ∀ fd ∈ O, 0 ≤ fd) (hadm : Along conf Admissible (init O) es) :
    Always (crashing (step conf)) (fun t ↦ ∃ w, t = some w ∧ Healthy w) (some (init O)) es ↔
      Along conf (fun w e ↦ ¬ Exhausts w e ∧ ¬ Steals w e) (init O) es := by
  refine Steps.always_iff (P := fun t ↦ ∀ w ∈ t, Inv w) (fun t e ht hadm ↦ ?_)
    (fun t e ht hadm hq ↦ ?_) ?_ ⟨_, rfl, healthy_init⟩ hadm
  · exact forall_mem_crashing fun w hw w' hw' ↦ (ht w hw).step (hadm w hw) hw'
  · obtain ⟨w, rfl, hw⟩ := hq
    rw [crashing_some, healthy_step_iff (ht w rfl) hw (hadm w rfl)]
    simp
  · rintro _ ⟨⟩
    exact inv_init hO

theorem exhausts_fine {tag : Nat} {stream : List UInt8} : ¬ Exhausts w (fine tag stream) := by
  rintro ⟨x, -, -, -, c, -, hconn, -⟩
  exact hconn rfl

theorem exhausts_retried {tag : Nat} : ¬ Exhausts w (retried tag fd) := by
  rintro ⟨x, -, -, -, c, -, -, via, addr, next, rest, -, hnone⟩
  cases hnone

theorem healthy_one :
    Always (crashing (step (proxiedConf 3))) (fun t ↦ ∃ w, t = some w ∧ Healthy w)
      (some (init {0, 1, 2})) twoAtOnce :=
  (healthy_iff (by decide) admissible_twoAtOnce).mpr <|
    along_twoAtOnce ⟨id, id⟩ (fun _ _ ↦ ⟨id, id⟩) (fun _ _ ↦ ⟨exhausts_retried, id⟩)
      (fun _ _ ↦ ⟨id, id⟩) fun _ _ _ ↦ ⟨exhausts_fine, id⟩

end World

end TelepathyFacebook
