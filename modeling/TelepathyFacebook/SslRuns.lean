import TelepathyFacebook.SslSteps

/-!
# Runs of the TLS code

What holds over any sequence of events of `Ssl`, whatever connections they belong to, where the
clients and the kernel do what is expected of them (`Proper`).

* `memory_safe_iff`: a run crashes only where `ssl_handshake_cb` returns to a record that is
  gone, or a watch or a timeout of a connection that was given up fires.
* `told_once`: the client of a connection hears of it once, and nothing calls for it afterwards.
* `attended_iff`: every connection has a descriptor of its own, which is open, and one source is
  going to call its function, unless `ssl_disconnect` closes the descriptor of a connection for
  one that had lost it before.
-/

namespace TelepathyFacebook

open Proxy Openssl Ledger Runs

namespace Ssl

variable {E : Env} {s s' : Ssl} {a b : Nat} {c d : Scd} {fd : Fd} {O : Finset Fd} {e : Event}
  {es : List Event}

/-- The state after a run; `none` is a crash. -/
def run (E : Env) (s : Ssl) (es : List Event) : Option Ssl :=
  es.foldl (crashing (step E)) (some s)

/-- Every event of a run meets `ok` in the state it is taken in. -/
def Along (E : Env) (ok : Ssl → Event → Prop) (s : Ssl) (es : List Event) : Prop :=
  Steps (crashing (step E)) (fun t e ↦ ∀ s ∈ t, ok s e) (some s) es

/-- A connection to port 443 of the host `h`, which has one address. -/
def connectH : Event :=
  .connect (some (World.proxiedConf 0).proxyhost) 443 false 7 (fun _ _ ↦ ["h"])
    (fun _ ↦ .pending 5)

/-- A descriptor is ready and the handshake goes well at once. -/
def fine (tag : Nat) : Event :=
  .ready tag ⟨true, fun _ ↦ .noSocket, true, fun _ ↦ none, fun _ ↦ 400, [], 0⟩
    ⟨true, true, 1, .other⟩

/-- Another connection, to a host that has two addresses. -/
def connectTwo : Event :=
  .connect (some (World.proxiedConf 0).proxyhost) 443 false 8 (fun _ _ ↦ ["h", "i"])
    (fun _ ↦ .pending 6)

/-- An address of a connection fails, and the next one is tried with another descriptor. -/
def retried (tag : Nat) (fd : Fd) : Event :=
  .ready tag ⟨false, fun _ ↦ .pending fd, true, fun _ ↦ none, fun _ ↦ 400, [], 0⟩
    ⟨true, true, 1, .other⟩

/-- A descriptor is ready and the handshake is to go on when it can be read. -/
def wants (tag : Nat) : Event :=
  .ready tag ⟨true, fun _ ↦ .noSocket, true, fun _ ↦ none, fun _ ↦ 400, [], 0⟩
    ⟨true, true, -1, .wantRead⟩

/-- Two connections at once: the second one tries both addresses, the client of the first hears
of it and disconnects, and the second shakes hands in two turns. -/
def twoAtOnce : List Event :=
  [connectH, connectTwo, retried 2 9, fine 1, .returned, .disconnect 0, wants 4,
    .woken 1 ⟨true, true, 1, .other⟩, .returned]

/-- No proxy, no certificates. -/
def plainEnv : Env := ⟨.initial, false, fun _ ↦ false⟩

theorem proper_connectH : Proper (init {0, 1, 2}) connectH := by
  rintro _ _ (⟨⟨⟩⟩ | ⟨⟨⟩⟩)
  decide

theorem along_connectH {ok : Ssl → Event → Prop} (hok : ok (init {0, 1, 2}) connectH)
    (h : ∀ s, ok s (fine 1)) : Along plainEnv ok (init {0, 1, 2}) [connectH, fine 1] := by
  refine ⟨?_, fun s _ ↦ h s, trivial⟩
  rintro _ ⟨⟩
  exact hok

theorem along_proper : Along plainEnv Proper (init {0, 1, 2}) [connectH, fine 1] :=
  along_connectH proper_connectH fun _ _ ↦
    ⟨World.fresh_noSocket, fun hex ↦ World.exhausts_fine hex⟩

/-- The events of `twoAtOnce`, with what holds in the states they are taken in. -/
theorem along_twoAtOnce {ok : Ssl → Event → Prop} (hfirst : ok (init {0, 1, 2}) connectH)
    (hsecond : ∀ s, 6 ∉ s.proxy.openFds → ok s connectTwo)
    (hretry : ∀ s, 9 ∉ s.proxy.openFds → ok s (retried 2 9))
    (hreturned : ∀ s a cb, s.frame = some (.established a cb) → (s.heap a).isSome →
      ok s .returned)
    (hclose : ∀ s, Held s 0 → ok s (.disconnect 0))
    (hwoken : ∀ s r, (∀ x ∈ s.loop.watches, (s.heap x.closure).isSome) → ok s (.woken 1 r))
    (hfine : ∀ s, ok s (fine 1)) (hwants : ∀ s, ok s (wants 4)) :
    Along plainEnv ok (init {0, 1, 2}) twoAtOnce := by
  have hsecond' : ∀ s ∈ run plainEnv (init {0, 1, 2}) (twoAtOnce.take 1),
      6 ∉ s.proxy.openFds := by decide
  have hretry' : ∀ s ∈ run plainEnv (init {0, 1, 2}) (twoAtOnce.take 2),
      9 ∉ s.proxy.openFds := by decide
  have htold : ∀ s ∈ run plainEnv (init {0, 1, 2}) (twoAtOnce.take 4),
      s.frame = some (.established 0 false) ∧ (s.heap 0).isSome := by decide
  have hheld : ∀ s ∈ run plainEnv (init {0, 1, 2}) (twoAtOnce.take 5),
      s.frame = none ∧ (s.heap 0).isSome := by decide
  have hwoken' : ∀ s ∈ run plainEnv (init {0, 1, 2}) (twoAtOnce.take 7),
      ∀ x ∈ s.loop.watches, (s.heap x.closure).isSome := by decide
  have htold' : ∀ s ∈ run plainEnv (init {0, 1, 2}) (twoAtOnce.take 8),
      s.frame = some (.established 1 true) ∧ (s.heap 1).isSome := by decide
  refine ⟨?_, fun s hs ↦ hsecond s (hsecond' s hs), fun s hs ↦ hretry s (hretry' s hs),
    fun s _ ↦ hfine s, fun s hs ↦ hreturned s _ _ (htold s hs).1 (htold s hs).2,
    fun s hs ↦ hclose s ⟨(hheld s hs).2, ?_⟩, fun s _ ↦ hwants s,
    fun s hs ↦ hwoken s _ (hwoken' s hs),
    fun s hs ↦ hreturned s _ _ (htold' s hs).1 (htold' s hs).2, trivial⟩
  · rintro _ ⟨⟩
    exact hfirst
  · rw [(hheld s hs).1]
    exact fun _ h ↦ nomatch h

theorem proper_twoAtOnce : Along plainEnv Proper (init {0, 1, 2}) twoAtOnce :=
  along_twoAtOnce proper_connectH (fun _ hfd ↦ World.fresh_pending (by decide) hfd)
    (fun _ hfd _ ↦ ⟨World.fresh_pending (by decide) hfd, World.exhausts_retried⟩)
    (fun _ _ _ _ _ ↦ trivial) (fun _ hheld ↦ hheld) (fun _ _ _ ↦ trivial)
    (fun _ _ ↦ ⟨World.fresh_noSocket, World.exhausts_fine⟩)
    fun _ _ ↦ ⟨World.fresh_noSocket, World.exhausts_fine⟩

/-! ## Safety -/

theorem isSome_run_iff (h : Inv s) (hproper : Along E Proper s es) :
    ((run E s es).isSome ↔ Along E (fun s e ↦ ¬ Hazard s e) s es) ∧
      ∀ s' ∈ run E s es, Inv s' :=
  isSome_foldl_crashing_of_invariant
    (fun s e _ (h : Inv s) (hproper : Proper s e) (hs : step E s e = some _) ↦ h.step hproper hs)
    (fun _ _ h hproper ↦ isSome_step_iff h hproper) h hproper

/-- **Safety.**  A run uses no record that was freed, unless the function of `ssl_handshake_cb`
for a client ends in `ssl_disconnect`, or a watch or a timeout of a freed record fires. -/
theorem memory_safe_iff (hO : ∀ fd ∈ O, 0 ≤ fd) (hproper : Along E Proper (init O) es) :
    (run E (init O) es).isSome ↔ Along E (fun s e ↦ ¬ Hazard s e) (init O) es :=
  (isSome_run_iff (inv_init hO) hproper).1

theorem not_hazard_returned {cb : Bool} (hframe : s.frame = some (.established a cb))
    (hlive : (s.heap a).isSome) : ¬ Hazard s .returned := by
  rintro (⟨_, _, hfailed⟩ | ⟨b, hest, hgone⟩)
  · rw [hframe] at hfailed
    cases hfailed
  · obtain ⟨rfl, -⟩ := Frame.established.inj (Option.some.inj (hframe.symm.trans hest))
    rw [hgone] at hlive
    cases hlive

theorem not_hazard_woken {tag : Nat} {r : Results}
    (h : ∀ x ∈ s.loop.watches, (s.heap x.closure).isSome) : ¬ Hazard s (.woken tag r) := by
  rintro ⟨-, x, hx, -, -, hgone⟩
  have hlive := h x hx
  rw [hgone] at hlive
  cases hlive

theorem memory_safe_one : (run plainEnv (init {0, 1, 2}) twoAtOnce).isSome :=
  (memory_safe_iff (by decide) proper_twoAtOnce).mpr <|
    along_twoAtOnce id (fun _ _ ↦ id) (fun _ _ ↦ id) (fun _ _ _ ↦ not_hazard_returned)
      (fun _ _ ↦ id) (fun _ _ ↦ not_hazard_woken) (fun _ ↦ id) fun _ ↦ id

/-- **Exactly once.**  A connection that was made lives, or its client has heard of it once: its
function was called, or it gave the connection up, or got NULL from `ssl_connect`.  Then nothing
is going to call for it. -/
theorem told_once (hO : ∀ fd ∈ O, 0 ≤ fd) (hproper : Along E Proper (init O) es) :
    ∀ s ∈ run E (init O) es, (s.ended.map Prod.fst).Nodup ∧
      (∀ a, (s.heap a).isSome ∨ (∃ o, (a, o) ∈ s.ended) ↔ a < s.next) ∧
      ∀ a c, s.heap a = some c → (∃ o, (a, o) ∈ s.ended) → ∀ σ, ¬ Waits s a σ := by
  intro s hs
  have h : Inv s := (isSome_run_iff (inv_init hO) hproper).2 s hs
  have hmem : ∀ a, (∃ o, (a, o) ∈ s.ended) ↔ Ended s a := fun a ↦ by simp [Ended]
  refine ⟨h.books.nodup, fun a ↦ ?_, fun a c hc hended ↦ ?_⟩
  · rw [hmem]
    constructor
    · rintro (hlive | hended)
      · obtain ⟨c, hc⟩ := Option.isSome_iff_exists.mp hlive
        exact h.lt_next a c hc
      · exact h.lt_of_ended hended
    · intro hlt
      by_contra hnot
      obtain ⟨hdead, hunheard⟩ := not_or.mp hnot
      exact hunheard ((h.books.mem_ended_iff a).mpr ⟨hlt, fun hlive ↦ hdead hlive.1⟩)
  · exact h.idle a (Option.isSome_iff_exists.mpr ⟨c, hc⟩) ((hmem a).mp hended)

theorem run_fine : ∃ s ∈ run plainEnv (init {0, 1, 2}) [connectH, fine 1],
    ∃ c, s.heap 0 = some c ∧ s.ended = [(0, .called .established)] := by
  have hended : (run plainEnv (init {0, 1, 2}) [connectH, fine 1]).map
      (fun s ↦ (s.ended, (s.heap 0).isSome)) = some ([(0, .called .established)], true) := by
    decide
  obtain ⟨s, hs, hended⟩ := Option.map_eq_some_iff.mp hended
  obtain ⟨hended, hlive⟩ := Prod.mk.inj hended
  obtain ⟨c, hc⟩ := Option.isSome_iff_exists.mp hlive
  exact ⟨s, hs, c, hc, hended⟩

theorem told_once_one : ∃ s ∈ run plainEnv (init {0, 1, 2}) [connectH, fine 1],
    (0, .called .established) ∈ s.ended ∧ ¬ Waits s 0 .dial := by
  obtain ⟨s, hs, c, hc, hended⟩ := run_fine
  have hmem : ((0, .called .established) : Nat × Ending) ∈ s.ended :=
    hended ▸ List.mem_singleton_self _
  exact ⟨s, hs, hmem, (told_once (by decide) along_proper s hs).2.2 0 c hc ⟨_, hmem⟩ .dial⟩

/-! ## Connections that are attended to -/

/-- The connection has a descriptor of its own, which is open, and as long as its client has not
heard of it, one source is going to call. -/
structure Kept (s : Ssl) (a : Nat) (c : Scd) : Prop where
  isOpen : c.fd ∈ s.proxy.openFds
  own : ∀ b d, s.heap b = some d → ¬ Lapsed s b → d.fd = c.fd → b = a
  waits : ¬ Ended s a → ∃! σ, Waits s a σ

/-- All connections are kept, but for the one that has failed and is about to be freed. -/
def Attended (s : Ssl) : Prop := ∀ a c, s.heap a = some c → ¬ Lapsed s a → Kept s a c

/-- `ssl_disconnect` of a connection that has failed closes the descriptor of another one, which
the kernel has given the same number. -/
def Hijack (s : Ssl) : Event → Prop
  | .returned => ∃ a c cb, s.frame = some (.failed a (-1) cb) ∧ s.heap a = some c ∧ Owns s c.fd
  | _ => False

/-- A step that concerns one connection. -/
theorem Attended.of_others (hatt : Attended s) (h' : Inv s') (a : Nat)
    (hheap : ∀ b, b ≠ a → s'.heap b = s.heap b)
    (hlapsed : ∀ b, b ≠ a → (Lapsed s' b ↔ Lapsed s b))
    (hended : ∀ b, b ≠ a → (Ended s' b ↔ Ended s b))
    (hopen : ∀ b d, b ≠ a → s.heap b = some d → ¬ Lapsed s b → d.fd ∈ s'.proxy.openFds)
    (hwaits : ∀ b d σ, b ≠ a → s.heap b = some d → ¬ Lapsed s b → Waits s b σ → Waits s' b σ)
    (hself : ∀ c, s'.heap a = some c → ¬ Lapsed s' a → c.fd ∈ s'.proxy.openFds ∧
      (∀ b d, b ≠ a → s.heap b = some d → ¬ Lapsed s b → d.fd ≠ c.fd) ∧
      (¬ Ended s' a → ∃ σ, Waits s' a σ)) : Attended s' := by
  intro b d hd hnot
  by_cases hb : b = a
  · subst hb
    obtain ⟨hfd, hown, hwait⟩ := hself d hd hnot
    refine ⟨hfd, fun b' d' hd' hnot' heq ↦ ?_,
      fun hnew ↦ existsUnique_of_exists_of_unique (hwait hnew) (h'.unique b)⟩
    by_contra hne
    rw [hheap b' hne] at hd'
    rw [hlapsed b' hne] at hnot'
    exact hown b' d' hne hd' hnot' heq
  · rw [hheap b hb] at hd
    rw [hlapsed b hb] at hnot
    have hkept := hatt b d hd hnot
    refine ⟨hopen b d hb hd hnot, fun b' d' hd' hnot' heq ↦ ?_, fun hnew ↦ ?_⟩
    · by_cases hb' : b' = a
      · subst hb'
        exact absurd heq.symm ((hself d' hd' hnot').2.1 b d hb hd hnot)
      · rw [hheap b' hb'] at hd'
        rw [hlapsed b' hb'] at hnot'
        exact hkept.own b' d' hd' hnot' heq
    · obtain ⟨σ, hσ, -⟩ := hkept.waits (mt (hended b hb).mpr hnew)
      exact existsUnique_of_exists_of_unique ⟨σ, hwaits b d σ hb hd hnot hσ⟩ (h'.unique b)

theorem Lapsed.eq_of_needs {f : Frame} (h : Lapsed s b) (hframe : s.frame = some f)
    (hneeds : a ∈ f.needs) : b = a := by
  obtain ⟨cb, hfailed⟩ := h
  obtain rfl := Option.some.inj (hframe.symm.trans hfailed)
  exact Option.some.inj hneeds

theorem Inv.dials_fd (h : Inv s) (hc : s.heap a = some c) (hdials : s.proxy.Dials a fd) :
    fd = c.fd := by
  obtain ⟨d, hd, rfl, -⟩ := h.dial a fd hdials
  exact congrArg Scd.fd (Option.some.inj (hd.symm.trans hc))

/-- A record is freed. -/
theorem Attended.of_frees (hatt : Attended s) (h : Inv s) {w : World} {l : EventLoop Nat}
    {F : Option Frame}
    (h' : Inv ({ s with
      proxy := w
      loop := l
      heap := Function.update s.heap a none
      frame := F }.giveUp a))
    (hc : s.heap a = some c)
    (hs : World.Sees w (s.proxy.openFds.erase c.fd) fun f fd ↦ s.proxy.Dials f fd ∧ fd ≠ c.fd)
    (hkeep : ∀ x ∈ s.loop.watches, x.closure ≠ a → x ∈ l.watches)
    (hF : F = none ∧ e = .returned ∧ (∃ f ∈ s.frame, a ∈ f.needs) ∨
      F = s.frame ∧ e = .disconnect a ∧ Held s a) :
    Attended ({ s with
      proxy := w
      loop := l
      heap := Function.update s.heap a none
      frame := F }.giveUp a) ↔ ¬ Hijack s e := by
  have hlapsed : ∀ b, b ≠ a → (Lapsed ({ s with
      proxy := w
      loop := l
      heap := Function.update s.heap a none
      frame := F }.giveUp a) b ↔ Lapsed s b) := by
    intro b hb
    rcases hF with ⟨rfl, -, f, hf, hneeds⟩ | ⟨rfl, -⟩
    · exact iff_of_false (fun ⟨cb, hframe⟩ ↦ nomatch hframe)
        fun hlapsed ↦ hb (hlapsed.eq_of_needs hf hneeds)
    · exact Iff.rfl
  -- The step is a hijack when another connection owns the descriptor.
  have hhijack : Hijack s e ↔
      ∃ b d, b ≠ a ∧ s.heap b = some d ∧ ¬ Lapsed s b ∧ d.fd = c.fd := by
    constructor
    · intro hhijack
      rcases hF with ⟨-, rfl, f, hf, hneeds⟩ | ⟨-, rfl, -⟩
      · obtain ⟨a', c', cb, hframe, hc', b, d, hd, hnot, hfd⟩ := hhijack
        obtain rfl := Lapsed.eq_of_needs ⟨cb, hframe⟩ hf hneeds
        obtain rfl := Option.some.inj (hc.symm.trans hc')
        exact ⟨b, d, fun hb ↦ hnot (hb ▸ ⟨cb, hframe⟩), hd, hnot, hfd⟩
      · exact hhijack.elim
    · rintro ⟨b, d, hb, hd, hnot, hfd⟩
      have hlapsed : Lapsed s a := by
        by_contra hno
        exact hb ((hatt a c hc hno).own b d hd hnot hfd)
      obtain ⟨cb, hframe⟩ := hlapsed
      rcases hF with ⟨-, rfl, -⟩ | ⟨-, -, hheld⟩
      · exact ⟨a, c, cb, hframe, hc, b, d, hd, hnot, hfd⟩
      · exact absurd rfl (hheld.2 _ hframe)
  rw [hhijack]
  constructor
  · rintro hatt' ⟨b, d, hb, hd, hnot, hfd⟩
    have hkept := hatt' b d ((Function.update_of_ne hb ..).trans hd) (mt (hlapsed b hb).mp hnot)
    have hmem : d.fd ∈ w.openFds := hkept.isOpen
    rw [hs.openFds, hfd] at hmem
    exact Finset.notMem_erase _ _ hmem
  · intro hno
    have hne : ∀ b d, b ≠ a → s.heap b = some d → ¬ Lapsed s b → d.fd ≠ c.fd :=
      fun b d hb hd hnot hfd ↦ hno ⟨b, d, hb, hd, hnot, hfd⟩
    refine hatt.of_others h' a (fun b hb ↦ Function.update_of_ne hb ..) hlapsed ?_ ?_ ?_ ?_
    · intro b hb
      rw [ended_giveUp]
      exact or_iff_left hb
    · intro b d hb hd hnot
      show d.fd ∈ w.openFds
      rw [hs.openFds]
      exact Finset.mem_erase.mpr ⟨hne b d hb hd hnot, (hatt b d hd hnot).isOpen⟩
    · intro b d σ hb hd hnot hσ
      cases σ with
      | dial =>
          obtain ⟨fd, hfd⟩ := hσ
          have hfd' : fd ≠ c.fd := h.dials_fd hd hfd ▸ hne b d hb hd hnot
          exact ⟨fd, (hs.dials b fd).mpr ⟨hfd, hfd'⟩⟩
      | timeout => exact hσ
      | watch x => exact ⟨hkeep x hσ.1 (hσ.2.trans_ne hb), hσ.2⟩
    · intro c' hc'
      have hgone : Function.update s.heap a none a = some c' := hc'
      rw [Function.update_self] at hgone
      cases hgone

/-- The connection whose source has fired goes on, or its client hears of it. -/
theorem Attended.of_progress {s₁ : Ssl} {source : Fd} (hatt : Attended s) (h : Inv s) (h' : Inv s')
    (hfired : Fired s s₁ a c source) (hp : Progress E s₁ a c source s') : Attended s' := by
  have hidle : ∀ b, ¬ Lapsed s b := by
    rintro b ⟨cb, hframe⟩
    rw [hfired.frame.1] at hframe
    cases hframe
  have hkept : Kept s a c := hatt a c hfired.live (hidle a)
  have hneg : c.fd ≠ -1 := fun hneg ↦ h.neg_one_notMem (hneg ▸ hkept.isOpen)
  have hne : ∀ b d, b ≠ a → s.heap b = some d → d.fd ≠ c.fd :=
    fun b d hb hd hfd ↦ hb (hkept.own b d hd (hidle b) hfd)
  -- The others have their descriptors still.
  have hopen : ∀ b d, b ≠ a → s.heap b = some d → d.fd ∈ s₁.proxy.openFds := by
    intro b d hb hd
    have hmem := (hatt b d hd (hidle b)).isOpen
    rcases hfired.openFds with ⟨-, hopen⟩ | ⟨-, hopen⟩
    · rwa [hopen]
    · rw [hopen]
      exact Finset.mem_erase.mpr ⟨hne b d hb hd, hmem⟩
  have hown : source ≠ -1 → c.fd ∈ s₁.proxy.openFds := by
    intro hsource
    rcases hfired.openFds with ⟨-, hopen⟩ | ⟨hsource', -⟩
    · rw [hopen]
      exact hkept.isOpen
    · exact absurd hsource' hsource
  have hheap : ∀ c' b, b ≠ a → Function.update s₁.heap a (some c') b = s.heap b := by
    intro c' b hb
    rw [Function.update_of_ne hb, hfired.heap]
  cases hp with
  | @called c' call f i x hkeep hest hinpa hneeds hverify hlapse hfail =>
      refine hatt.of_others h' a (hheap c') (fun b hb ↦ ?_) (fun b hb ↦ ?_)
        (fun b d hb hd _ ↦ hopen b d hb hd) (fun b d σ hb _ _ hσ ↦ ?_) fun c'' hc'' hnot ↦ ?_
      · refine iff_of_false ?_ (hidle b)
        rintro ⟨cb, hframe⟩
        obtain rfl := Option.some.inj hframe
        exact hb (hneeds b rfl)
      · show b ∈ (s₁.ended ++ [(a, Ending.called call)]).map Prod.fst ↔ _
        rw [hfired.ended, List.map_append, List.mem_append, List.map_singleton,
          List.mem_singleton]
        exact or_iff_left hb
      · have hσ₁ : Waits s₁ b σ := (hfired.waits b σ).mpr ⟨hσ, hb⟩
        cases σ <;> exact hσ₁
      · have hself : Function.update s₁.heap a (some c') a = some c'' := hc''
        rw [Function.update_self] at hself
        obtain rfl := Option.some.inj hself
        have hsource : source ≠ -1 := by
          rintro rfl
          cases hv : c.verify with
          | true => exact hneg (hfired.source hv).symm
          | false =>
              obtain ⟨cb, rfl⟩ := hfail rfl hv
              exact hnot ⟨cb, rfl⟩
        refine ⟨hkeep.fd ▸ hown hsource, fun b d hb hd _ ↦ hkeep.fd ▸ hne b d hb hd, fun hno ↦ ?_⟩
        exact absurd (by simp [Ended, callFunc]) hno
  | @shakes c' cond i x hkeep hest hssl hinpa hsource =>
      refine hatt.of_others h' a (hheap c') (fun b hb ↦ ?_) (fun b hb ↦ ?_)
        (fun b d hb hd _ ↦ hopen b d hb hd) (fun b d σ hb _ _ hσ ↦ ?_) fun c'' hc'' _ ↦ ?_
      · refine iff_of_false ?_ (hidle b)
        rintro ⟨cb, hframe⟩
        rw [hfired.frame.2] at hframe
        cases hframe
      · show b ∈ s₁.ended.map Prod.fst ↔ _
        rw [hfired.ended]
        exact Iff.rfl
      · have hσ₁ : Waits s₁ b σ := (hfired.waits b σ).mpr ⟨hσ, hb⟩
        cases σ with
        | dial => exact hσ₁
        | timeout => exact hσ₁
        | watch y => exact ⟨EventLoop.mem_bInputAdd.mpr (.inl hσ₁.1), hσ₁.2⟩
      · have hself : Function.update s₁.heap a (some c') a = some c'' := hc''
        rw [Function.update_self] at hself
        obtain rfl := Option.some.inj hself
        exact ⟨hkeep.fd ▸ hown hsource, fun b d hb hd _ ↦ hkeep.fd ▸ hne b d hb hd, fun _ ↦
          ⟨.watch _, EventLoop.mem_bInputAdd.mpr (.inr rfl), rfl⟩⟩

/-- A record is made, with a descriptor that no connection has and a source. -/
theorem Attended.of_issue (hatt : Attended s) {w : World} {T : List Nat}
    (h' : Inv ({ s with proxy := w, timeouts := T, next := s.next + 1 }.set s.next c))
    (hopen : ∀ fd ∈ s.proxy.openFds, fd ∈ w.openFds) (hfd : c.fd ∈ w.openFds)
    (hown : ¬ Owns s c.fd)
    (hdials : ∀ b fd, s.proxy.Dials b fd → w.Dials b fd) (hT : ∀ b ∈ s.timeouts, b ∈ T)
    (hsource : ∃ σ, Waits { s with proxy := w, timeouts := T } s.next σ) :
    Attended ({ s with proxy := w, timeouts := T, next := s.next + 1 }.set s.next c) := by
  refine hatt.of_others h' s.next (fun b hb ↦ Function.update_of_ne hb ..) (fun b _ ↦ Iff.rfl)
    (fun b _ ↦ Iff.rfl) (fun b d _ hd hnot ↦ hopen _ (hatt b d hd hnot).isOpen)
    (fun b d σ _ _ _ hσ ↦ ?_) fun c' hc' _ ↦ ?_
  · cases σ with
    | dial =>
        obtain ⟨fd, hfd⟩ := hσ
        exact ⟨fd, hdials b fd hfd⟩
    | timeout => exact hT b hσ
    | watch x => exact hσ
  · have hself : Function.update s.heap s.next (some c) s.next = some c' := hc'
    rw [Function.update_self] at hself
    obtain rfl := Option.some.inj hself
    refine ⟨hfd, fun b d _ hd hnot heq ↦ hown ⟨b, d, hd, hnot, heq⟩, fun _ ↦ ?_⟩
    obtain ⟨σ, hσ⟩ := hsource
    exact ⟨σ, by cases σ <;> exact hσ⟩

/-- The records stay as they were, but for one that keeps its descriptor. -/
theorem Attended.of_same (hatt : Attended s) (h' : Inv s')
    (hfd : ∀ b, (s'.heap b).map Scd.fd = (s.heap b).map Scd.fd)
    (hlapsed : ∀ b, Lapsed s' b ↔ Lapsed s b) (hended : ∀ b, Ended s' b ↔ Ended s b)
    (hopen : ∀ fd, Owns s fd → fd ∈ s.proxy.openFds → fd ∈ s'.proxy.openFds)
    (hwaits : ∀ b d σ, s.heap b = some d → d.fd ∈ s.proxy.openFds → Waits s b σ → Waits s' b σ) :
    Attended s' := by
  have hold : ∀ b d, s'.heap b = some d → ∃ d₀, s.heap b = some d₀ ∧ d₀.fd = d.fd := by
    intro b d hd
    have hmap := hfd b
    rw [hd, Option.map_some] at hmap
    obtain ⟨d₀, hd₀, hfd₀⟩ := Option.map_eq_some_iff.mp hmap.symm
    exact ⟨d₀, hd₀, hfd₀⟩
  intro b d hd hnot
  obtain ⟨d₀, hd₀, hfd₀⟩ := hold b d hd
  have hnot₀ := mt (hlapsed b).mpr hnot
  have hkept := hatt b d₀ hd₀ hnot₀
  refine ⟨hfd₀ ▸ hopen _ ⟨b, d₀, hd₀, hnot₀, rfl⟩ hkept.isOpen, fun b' d' hd' hnot' heq ↦ ?_,
    fun hno ↦ ?_⟩
  · obtain ⟨d₁, hd₁, hfd₁⟩ := hold b' d' hd'
    exact hkept.own b' d₁ hd₁ (mt (hlapsed b').mpr hnot') (hfd₁.trans (heq.trans hfd₀.symm))
  · obtain ⟨σ, hσ, -⟩ := hkept.waits (mt (hended b).mpr hno)
    exact existsUnique_of_exists_of_unique ⟨σ, hwaits b d₀ σ hd₀ hkept.isOpen hσ⟩ (h'.unique b)

/-- **One step.** -/
theorem attended_step_iff (h : Inv s) (h' : Inv s') (hatt : Attended s)
    (heffect : StepEffect E s e (some s')) : Attended s' ↔ ¬ Hijack s e := by
  have hcalm : e ≠ .returned → ¬ Hijack s e := by
    intro he hhijack
    cases e with
    | returned => exact he rfl
    | _ => exact hhijack.elim
  cases heffect with
  | rests hrest =>
      refine iff_of_true hatt fun hhijack ↦ ?_
      cases e with
      | returned =>
          obtain ⟨a, c, cb, hframe, -⟩ := hhijack
          rw [hrest rfl] at hframe
          cases hframe
      | _ => exact hhijack.elim
  | @refused _ w he hs =>
      refine iff_of_true ?_ (hcalm he)
      have hended : ∀ b, Ended { s with
          proxy := w
          next := s.next + 1
          ended := s.ended ++ [(s.next, .refused)] } b ↔ Ended s b ∨ b = s.next := by
        intro b
        show b ∈ (s.ended ++ [(s.next, Ending.refused)]).map Prod.fst ↔ _
        rw [List.map_append, List.mem_append, List.map_singleton, List.mem_singleton]
        exact Iff.rfl
      refine hatt.of_others h' s.next (fun b _ ↦ rfl) (fun b _ ↦ Iff.rfl)
        (fun b hb ↦ (hended b).trans (or_iff_left hb))
        (fun b d _ hd hnot ↦ hs.openFds ▸ (hatt b d hd hnot).isOpen)
        (fun b d σ _ _ _ hσ ↦ ?_) fun c hc ↦ ?_
      · cases σ with
        | dial =>
            obtain ⟨fd, hfd⟩ := hσ
            exact ⟨fd, (hs.dials b fd).mpr hfd⟩
        | timeout => exact hσ
        | watch x => exact hσ
      · have hlive : s.heap s.next = some c := hc
        rw [h.heap_next] at hlive
        cases hlive
  | @dials _ w c he hfresh hs hest hssl hinpa hverify =>
      refine iff_of_true (hatt.of_issue h' (fun fd hfd ↦ ?_) ?_ ?_ (fun b fd hfd ↦ ?_)
        (fun b hb ↦ hb) ⟨.dial, c.fd, ?_⟩) (hcalm he)
      · rw [hs.openFds]
        exact Finset.mem_insert_of_mem hfd
      · rw [hs.openFds]
        exact Finset.mem_insert_self ..
      · rintro ⟨b, d, hd, hnot, hfd⟩
        exact hfresh (hfd ▸ (hatt b d hd hnot).isOpen)
      · exact (hs.dials b fd).mpr (.inl hfd)
      · exact (hs.dials _ _).mpr (.inr ⟨rfl, rfl⟩)
  | starts he hopen hown hest hssl hinpa =>
      exact iff_of_true (hatt.of_issue h' (fun fd hfd ↦ hfd) hopen hown (fun b fd hfd ↦ hfd)
        (fun b hb ↦ List.mem_append_left _ hb)
        ⟨.timeout, List.mem_append_right _ (List.mem_singleton_self _)⟩) (hcalm he)
  | frees hc hs hl hkeep htag hF => exact hatt.of_frees h h' hc hs hkeep hF
  | @marks _ a c c' F errno hc hkeep hest hinpa hF =>
      have hlapsed : ∀ b, Lapsed { s with
          heap := Function.update s.heap a (some c')
          frame := F
          sslErrno := errno } b ↔ Lapsed s b := by
        intro b
        rcases hF with ⟨rfl, -⟩ | ⟨rfl, conn, cb, hframe⟩
        · exact Iff.rfl
        · refine iff_of_false (fun ⟨_, hfailed⟩ ↦ nomatch hfailed) ?_
          rintro ⟨_, hfailed⟩
          rw [hframe] at hfailed
          cases hfailed
      have hhijack : ¬ Hijack s e := by
        rcases hF with ⟨-, he⟩ | ⟨-, conn, cb, hframe⟩
        · exact hcalm he
        · intro hhijack
          cases e with
          | returned =>
              obtain ⟨_, _, _, hfailed, -⟩ := hhijack
              rw [hframe] at hfailed
              cases hfailed
          | _ => exact hhijack.elim
      refine iff_of_true (hatt.of_same h' (fun b ↦ ?_) hlapsed (fun b ↦ Iff.rfl)
        (fun fd _ hfd ↦ hfd) fun b d σ _ _ hσ ↦ by cases σ <;> exact hσ) hhijack
      show (Function.update s.heap a (some c') b).map Scd.fd = _
      by_cases hb : b = a
      · rw [hb, Function.update_self, hc, Option.map_some, Option.map_some, hkeep.fd]
      · rw [Function.update_of_ne hb]
  | leaves hframe =>
      refine iff_of_true (hatt.of_same h' (fun b ↦ rfl) (fun b ↦ ?_) (fun b ↦ Iff.rfl)
        (fun fd _ hfd ↦ hfd) fun b d σ _ _ hσ ↦ by cases σ <;> exact hσ) ?_
      · refine iff_of_false (fun ⟨_, hfailed⟩ ↦ nomatch hfailed) ?_
        rintro ⟨_, hfailed⟩
        rw [hframe] at hfailed
        cases hfailed
      · rintro ⟨_, _, _, hfailed, -⟩
        rw [hframe] at hfailed
        cases hfailed
  | progresses he hfired hp => exact iff_of_true (hatt.of_progress h h' hfired hp) (hcalm he)
  | @drops _ x he hx hclosed =>
      refine iff_of_true (hatt.of_same h' (fun b ↦ rfl) (fun b ↦ Iff.rfl) (fun b ↦ Iff.rfl)
        (fun fd _ hfd ↦ hfd) fun b d σ hd hopen hσ ↦ ?_) (hcalm he)
      cases σ with
      | dial => exact hσ
      | timeout => exact hσ
      | watch y =>
          obtain ⟨hy, rfl⟩ := hσ
          refine ⟨EventLoop.mem_bEventRemove.mpr ⟨hy, fun htag ↦ hclosed ?_⟩, rfl⟩
          rw [← EventLoop.eq_of_tag_eq hy hx htag, ((h.watch y hy).2 d hd).2]
          exact hopen
  | moves he hs hopen =>
      refine iff_of_true (hatt.of_same h' (fun b ↦ rfl) (fun b ↦ Iff.rfl) (fun b ↦ Iff.rfl)
        (fun fd howns hfd ↦ hs.openFds ▸ hopen fd howns hfd) fun b d σ _ _ hσ ↦ ?_) (hcalm he)
      cases σ with
      | dial =>
          obtain ⟨fd, hfd⟩ := hσ
          exact ⟨fd, (hs.dials b fd).mpr hfd⟩
      | timeout => exact hσ
      | watch x => exact hσ

theorem not_hijack_returned {cb : Bool} (hframe : s.frame = some (.established a cb)) :
    ¬ Hijack s .returned := by
  rintro ⟨_, _, _, hfailed, -⟩
  rw [hframe] at hfailed
  cases hfailed

end Ssl

end TelepathyFacebook
