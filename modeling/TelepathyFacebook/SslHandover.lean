import TelepathyFacebook.SslRuns

/-!
# What a client is given

A client gets a connection when its function is called, and reads and writes with it then.

* `handed_over`: until then `ssl_read` and `ssl_write` fail with `SSL_NOHANDSHAKE`, and from then
  on they never do; the handshake was made on the descriptor of the connection, for its host.
-/

namespace TelepathyFacebook

open Openssl Runs

namespace Ssl

variable {E : Env} {s s' : Ssl} {a b : Nat} {c d : Scd} {fd : Fd} {O : Finset Fd} {e : Event}
  {es : List Event}

/-- The function of the client was called with the connection. -/
def Given (s : Ssl) (conn : Nat) : Prop := (conn, .called .established) ∈ s.ended

/-- The records tell which connections were handed over, and their `SSL`s are for their own
descriptors and hosts. -/
def Honest (E : Env) (s : Ssl) : Prop :=
  ∀ a c, s.heap a = some c → (c.established ↔ Given s a) ∧ ∀ x ∈ c.ssl, x = E.session c

theorem Given.ended (h : Given s a) : Ended s a := List.mem_map_of_mem h

theorem given_giveUp : Given (s.giveUp a) b ↔ Given s b := by
  show (b, Ending.called .established) ∈ (if a ∈ s.ended.map Prod.fst then s.ended
    else s.ended ++ [(a, .givenUp)]) ↔ _
  split
  · exact Iff.rfl
  · rw [List.mem_append, List.mem_singleton]
    exact or_iff_left (by simp)

/-- A step that concerns one record. -/
theorem Honest.of_update (hh : Honest E s) {c' : Scd} {S : Ssl}
    (hheap : S.heap = Function.update s.heap a (some c'))
    (hgiven : ∀ b, b ≠ a → (Given S b ↔ Given s b)) (hest : c'.established ↔ Given S a)
    (hown : ∀ x ∈ c'.ssl, x = E.session c') : Honest E S := by
  intro b d hd
  rw [hheap] at hd
  by_cases hb : b = a
  · rw [hb, Function.update_self] at hd
    obtain rfl := Option.some.inj hd
    exact hb ▸ ⟨hest, hown⟩
  · rw [Function.update_of_ne hb] at hd
    exact ⟨(hh b d hd).1.trans (hgiven b hb).symm, (hh b d hd).2⟩

/-- A record that is kept has an `SSL` of its own. -/
theorem Keeps.own_session {c' : Scd} (hkeep : Keeps E c c') (hown : ∀ x ∈ c.ssl, x = E.session c) :
    ∀ x ∈ c'.ssl, x = E.session c' := by
  have hsame : E.session c' = E.session c := by
    rw [Env.session, Env.session, hkeep.fd, hkeep.hostname]
  intro x hx
  rw [hsame]
  exact (hkeep.own x hx).elim (hown x) id

theorem Honest.of_progress {s₁ : Ssl} {source : Fd} (hh : Honest E s)
    (hfired : Fired s s₁ a c source) (hp : Progress E s₁ a c source s') : Honest E s' := by
  obtain ⟨hest₀, hown⟩ := hh a c hfired.live
  have hheap : ∀ c' : Scd, Function.update s₁.heap a (some c') =
      Function.update s.heap a (some c') := fun c' ↦ by rw [hfired.heap]
  cases hp with
  | @called c' call f i x hkeep hest hinpa hneeds hverify hlapse hfail =>
      have hgiven : ∀ b, (b, Ending.called .established) ∈ s₁.ended ++ [(a, .called call)] ↔
          Given s b ∨ b = a ∧ call = .established := by
        intro b
        rw [hfired.ended, List.mem_append, List.mem_singleton, Prod.mk.injEq, Ending.called.injEq,
          eq_comm (a := Notice.established)]
        exact Iff.rfl
      refine hh.of_update (hheap c') (fun b hb ↦ ?_) ?_ (hkeep.own_session hown)
      · exact (hgiven b).trans (or_iff_left fun h ↦ hb h.1)
      · rw [hest, hest₀]
        exact ((hgiven a).trans (or_congr_right (and_iff_right rfl))).symm
  | @shakes c' cond i x hkeep hest hssl hinpa hsource =>
      have hgiven : ∀ b, (b, Ending.called .established) ∈ s₁.ended ↔ Given s b := by
        intro b
        rw [hfired.ended]
        exact Iff.rfl
      refine hh.of_update (hheap c') (fun b _ ↦ hgiven b) ?_ (hkeep.own_session hown)
      rw [hest, hest₀]
      exact (hgiven a).symm

/-- **One step.** -/
theorem Honest.of_effect (hh : Honest E s) (h : Inv s) (heffect : StepEffect E s e (some s')) :
    Honest E s' := by
  have hnew : ¬ Given s s.next := fun hgiven ↦ lt_irrefl _ (h.lt_of_ended hgiven.ended)
  cases heffect with
  | rests => exact hh
  | refused he hs =>
      intro b d hd
      refine ⟨(hh b d hd).1.trans ?_, (hh b d hd).2⟩
      show _ ↔ (b, Ending.called .established) ∈ s.ended ++ [(s.next, .refused)]
      rw [List.mem_append, List.mem_singleton]
      exact (or_iff_left (by simp)).symm
  | dials he hfresh hs hest hssl hinpa hverify =>
      refine hh.of_update rfl (fun b _ ↦ Iff.rfl) (iff_of_false (by simp [hest]) hnew) ?_
      rw [hssl]
      exact fun x hx ↦ nomatch hx
  | starts he hopen hown hest hssl hinpa =>
      refine hh.of_update rfl (fun b _ ↦ Iff.rfl) (iff_of_false (by simp [hest]) hnew) ?_
      rw [hssl]
      exact fun x hx ↦ nomatch hx
  | @frees _ a c w l F hc hs hl hkeep htag hF =>
      intro b d hd
      have hd : Function.update s.heap a none b = some d := hd
      have hb : b ≠ a := by
        rintro rfl
        rw [Function.update_self] at hd
        cases hd
      rw [Function.update_of_ne hb] at hd
      exact ⟨(hh b d hd).1.trans given_giveUp.symm, (hh b d hd).2⟩
  | @marks _ a c c' F errno hc hkeep hest hinpa hF =>
      refine hh.of_update rfl (fun b _ ↦ Iff.rfl) ?_ (hkeep.own_session (hh a c hc).2)
      rw [hest]
      exact (hh a c hc).1
  | leaves hframe => exact hh
  | progresses he hfired hp => exact hh.of_progress hfired hp
  | drops he hx hclosed => exact hh
  | moves he hs hopen => exact hh

theorem honest_run (hO : ∀ fd ∈ O, 0 ≤ fd) (hproper : Along E Proper (init O) es) :
    ∀ s ∈ run E (init O) es, Inv s ∧ Honest E s := by
  have hstep : ∀ s e s', Inv s ∧ Honest E s → Proper s e → step E s e = some s' →
      Inv s' ∧ Honest E s' := by
    rintro s e s' ⟨h, hh⟩ hproper hs
    exact ⟨h.step hproper hs, hh.of_effect h (hs ▸ step_cases h hproper)⟩
  have hsafe : ∀ s e, Inv s ∧ Honest E s → Proper s e →
      ((step E s e).isSome ↔ ¬ Hazard s e) :=
    fun s e h hproper ↦ isSome_step_iff h.1 hproper
  exact (isSome_foldl_crashing_of_invariant hstep hsafe ⟨inv_init hO, fun a c hc ↦ nomatch hc⟩
    hproper).2

/-- **Handing over.**  In every state of a run, `ssl_read` and `ssl_write` tell that there is no
handshake yet exactly if the function of the client was not called with the connection; and the
handshake is on the descriptor of the connection and names its host, unless that is an
address. -/
theorem handed_over (hO : ∀ fd ∈ O, 0 ≤ fd) (hproper : Along E Proper (init O) es) :
    ∀ s ∈ run E (init O) es, ∀ a c, s.heap a = some c →
      (∀ x ∈ c.ssl, x = E.session c) ∧
        ∀ r, ∃ t, s.sslTransfer a r = some t ∧
          (t.1.sslErrno = .noHandshake ↔ (a, .called .established) ∉ s.ended) := by
  intro s hs a c hc
  obtain ⟨h, hh⟩ := honest_run hO hproper s hs
  obtain ⟨hest, hown⟩ := hh a c hc
  refine ⟨hown, fun r ↦ ?_⟩
  rw [sslTransfer, hc, Option.bind_some]
  split
  · next hno => exact ⟨_, rfl, iff_of_true rfl (mt hest.mpr hno)⟩
  · next hyes =>
      have hgiven : Given s a := hest.mp (not_not.mp hyes)
      obtain ⟨ssl, hssl⟩ := Option.isSome_iff_exists.mp (h.session a c hc (not_not.mp hyes))
      rw [hssl, Option.map_some]
      refine ⟨_, rfl, iff_of_false ?_ (not_not.mpr hgiven)⟩
      split
      · dsimp only
        split <;> exact SslErrno.noConfusion
      · exact SslErrno.noConfusion

theorem handed_over_one : ∃ s ∈ run plainEnv (init {0, 1, 2}) [connectH, fine 1],
    ∀ r, ∃ t, s.sslTransfer 0 r = some t ∧ t.1.sslErrno ≠ .noHandshake := by
  obtain ⟨s, hs, c, hc, hended⟩ := run_fine
  refine ⟨s, hs, fun r ↦ ?_⟩
  obtain ⟨t, ht, hiff⟩ := (handed_over (by decide) along_proper s hs 0 c hc).2 r
  refine ⟨t, ht, mt hiff.mp (not_not.mpr ?_)⟩
  rw [hended]
  exact List.mem_singleton_self _

end Ssl

end TelepathyFacebook
