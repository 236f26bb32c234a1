import TelepathyFacebook.ProxyFds

/-!
# The proxy code as its callers see it

A caller of `proxy_connect` sees no more than that its function is going to be called, and the
descriptor that it was given for it.  `Dials` is the set of these pairs, on which the code acts
by adding and removing single ones.

* `proxyConnect_sees`, `proxyDisconnect_sees`: a call adds a pair or removes one.
* `ready_sees`: when a descriptor is ready, nothing is seen, or one function is called and its
  pair is gone.
-/

namespace TelepathyFacebook

open Proxy

namespace World

variable {conf : Conf} {w w' : World} {a : Nat} {p : PHB} {c : Conn} {f g : Client} {fd : Fd}
  {x : Watch (Handler × Nat)} {wire : List Message} {O : Finset Fd} {cs : List (Fd × Bool)}
  {o : Outcome} {attempt : List SockAddr → Attempt}

/-- The function is going to be called for a connection that has the descriptor. -/
def Dials (w : World) (func : Client) (fd : Fd) : Prop :=
  ∃ a p, w.heap a = some p ∧ p.func = some func ∧ p.fd = fd

/-- The open descriptors and the pairs of a state in which all is well. -/
structure Sees (w : World) (O : Finset Fd) (D : Client → Fd → Prop) : Prop where
  inv : Inv w
  healthy : Healthy w
  openFds : w.openFds = O
  dials : ∀ f fd, Dials w f fd ↔ D f fd

theorem Dials.isOpen (hw : Healthy w) (h : Dials w f fd) : fd ∈ w.openFds := by
  obtain ⟨a, p, hp, -, rfl⟩ := h
  exact (hw a p hp).isOpen

theorem Dials.pos (h : Inv w) (hw : Healthy w) (hd : Dials w f fd) : 0 < fd := by
  obtain ⟨a, p, hp, -, rfl⟩ := hd
  exact h.table.pos _ (hw a p hp).entry

/-- A descriptor belongs to one function. -/
theorem Dials.unique (h : Inv w) (hw : Healthy w) (hf : Dials w f fd) (hg : Dials w g fd) :
    f = g := by
  obtain ⟨a, p, hp, hfp, hfd⟩ := hf
  obtain ⟨b, q, hq, hgq, rfl⟩ := hg
  obtain rfl : b = a := by
    by_contra hab
    exact hw.fd_ne h hp hq hab hfd.symm
  obtain rfl := Option.some.inj (hp.symm.trans hq)
  exact Option.some.inj (hfp.symm.trans hgq)

variable (conf) in
/-- A step that leaves everything well. -/
theorem Healthy.step (hw : Healthy w) (h : Inv w) {e : Event} (hadm : Admissible w e)
    (hex : ¬ Exhausts w e) (hsteals : ¬ Steals w e) :
    ∃ w', World.step conf w e = some w' ∧ Inv w' ∧ Healthy w' := by
  obtain ⟨w', hstep, hhealthy⟩ := (healthy_step_iff h hw hadm).mpr ⟨hex, hsteals⟩
  exact ⟨w', hstep, h.step hadm hstep, hhealthy⟩

theorem dials_congr (hheap : w'.heap = w.heap) : Dials w' f fd ↔ Dials w f fd := by
  rw [Dials, Dials, hheap]

/-- A connection that goes on. -/
theorem Holds.dials (hh : Holds w w' a p (some x) wire O cs) (hs : Shows c a p x)
    {p₀ : PHB} (hp₀ : w.heap a = some p₀) (hfunc : p₀.func = some c.func) (hfd : p₀.fd = c.fd) :
    Dials w' f fd ↔ Dials w f fd := by
  constructor
  · rintro ⟨b, q, hq, hf, hqfd⟩
    by_cases hb : b = a
    · rw [hb, hh.heap_self] at hq
      obtain rfl := Option.some.inj hq
      exact ⟨a, p₀, hp₀, hfunc.trans (hs.func.symm.trans hf), hfd.trans (hs.fd.symm.trans hqfd)⟩
    · exact ⟨b, q, (hh.heap_of_ne hb) ▸ hq, hf, hqfd⟩
  · rintro ⟨b, q, hq, hf, hqfd⟩
    by_cases hb : b = a
    · rw [hb, hp₀] at hq
      obtain rfl := Option.some.inj hq
      exact ⟨a, p, hh.heap_self, hs.func.trans (hfunc.symm.trans hf),
        hs.fd.trans (hfd.symm.trans hqfd)⟩
    · exact ⟨b, q, (hh.heap_of_ne hb).trans hq, hf, hqfd⟩

/-- A connection that ends: the pair with its descriptor is gone. -/
theorem Gone.dials {fd₀ : Fd} (hg : Gone w w' a fd₀ o wire O cs) (h : Inv w) (hw : Healthy w)
    (hp : w.heap a = some p) (hfd : p.fd = fd₀) : Dials w' f fd ↔ Dials w f fd ∧ fd ≠ fd₀ := by
  constructor
  · rintro ⟨b, q, hq, hf, rfl⟩
    have hb : b ≠ a := by
      rintro rfl
      rw [hg.heap, Function.update_self] at hq
      cases hq
    rw [hg.heap_of_ne hb] at hq
    exact ⟨⟨b, q, hq, hf, rfl⟩, hfd ▸ hw.fd_ne h hp hq hb⟩
  · rintro ⟨⟨b, q, hq, hf, rfl⟩, hne⟩
    have hb : b ≠ a := by
      rintro rfl
      obtain rfl := Option.some.inj (hp.symm.trans hq)
      exact hne hfd
    exact ⟨b, q, (hg.heap_of_ne hb).trans hq, hf, rfl⟩

/-- **A call of `proxy_disconnect`**. -/
theorem proxyDisconnect_sees (h : Inv w) (hw : Healthy w) (fd₀ : Fd) :
    ∃ w', w.proxyDisconnect fd₀ = some w' ∧
      Sees w' (w.openFds.erase fd₀) fun f fd ↦ Dials w f fd ∧ fd ≠ fd₀ := by
  have hadm : Admissible w (.disconnect fd₀) := trivial
  obtain ⟨w', hstep, hinv, hhealthy⟩ := hw.step .initial h hadm id id
  have hspec := proxyDisconnect_spec h fd₀
  refine ⟨w', hstep, ?_⟩
  split at hspec
  · next hno =>
      obtain rfl := Option.some.inj (hspec.symm.trans hstep)
      refine ⟨hinv, hhealthy, rfl, fun f fd ↦ (and_iff_left_of_imp ?_).symm⟩
      rintro ⟨a, p, hp, -, rfl⟩ rfl
      simpa using List.find?_eq_none.mp hno _ (hw a p hp).entry
  · next e he =>
      obtain ⟨_, hw', hg⟩ := hspec
      obtain rfl := Option.some.inj (hw'.symm.trans hstep)
      have hhash : e.hash = fd₀ := by simpa using List.find?_some he
      obtain ⟨p, hp, hfd⟩ := Option.map_eq_some_iff.mp
        (h.table.value e (List.mem_of_find?_eq_some he))
      exact ⟨hinv, hhealthy, hg.openFds, fun f fd ↦ hg.dials h hw hp (hfd.trans hhash)⟩

variable (conf) in
/-- **A call of `proxy_connect`**. -/
theorem proxyConnect_sees (h : Inv w) (hw : Healthy w) (hfresh : Fresh w.openFds attempt)
    (host : Option CString) (port : Int) (func : Client)
    (getaddrinfo : CString → Nat → List SockAddr) :
    ∃ w' fd₀, w.proxyConnect conf host port (some func) getaddrinfo attempt = some (w', fd₀) ∧
      (fd₀ = -1 ∧ Sees w' w.openFds (Dials w) ∨
        0 < fd₀ ∧ fd₀ ∉ w.openFds ∧
          Sees w' (insert fd₀ w.openFds) fun f fd ↦ Dials w f fd ∨ f = func ∧ fd = fd₀) := by
  have hadm : Admissible w (.connect host port (some func) getaddrinfo attempt) := hfresh
  obtain ⟨w', hstep, hinv, hhealthy⟩ := hw.step conf h hadm id id
  obtain ⟨⟨w', fd₀⟩, hconnect, rfl⟩ := Option.map_eq_some_iff.mp hstep
  refine ⟨w', fd₀, hconnect, ?_⟩
  have hrejected : w.proxyConnect conf host port (some func) getaddrinfo attempt = some (w, -1) →
      fd₀ = -1 ∧ Sees w' w.openFds (Dials w) := by
    intro hw'
    obtain ⟨rfl, rfl⟩ := Prod.mk.inj (Option.some.inj (hw'.symm.trans hconnect))
    exact ⟨rfl, hinv, hhealthy, rfl, fun f fd ↦ Iff.rfl⟩
  cases host with
  | none => exact .inl (hrejected rfl)
  | some host =>
      by_cases hargs : port ≤ 0 ∨ 128 < host.bytes.length
      · exact .inl (hrejected (if_pos hargs))
      · obtain ⟨hport, hlen⟩ := not_or.mp hargs
        have hspec := proxyConnect_spec conf func getaddrinfo h hfresh (not_le.mp hport)
          (not_lt.mp hlen)
        dsimp only at hspec
        split at hspec
        · obtain ⟨_, hw', hr⟩ := hspec
          obtain ⟨rfl, rfl⟩ := Prod.mk.inj (Option.some.inj (hw'.symm.trans hconnect))
          exact .inl ⟨rfl, hinv, hhealthy, hr.openFds, fun f fd ↦ dials_congr hr.heap⟩
        · next c hdial =>
            obtain ⟨_, p, x, hw', hst⟩ := hspec
            obtain ⟨rfl, rfl⟩ := Prod.mk.inj (Option.some.inj (hw'.symm.trans hconnect))
            have hfunc : c.func = func := by
              obtain ⟨_, -, rfl⟩ := Option.map_eq_some_iff.mp hdial
              rfl
            refine .inr ⟨hst.shows.pos, (dial_fd hfresh hdial).1, hinv, hhealthy, hst.openFds,
              fun f fd ↦ ?_⟩
            rw [← hfunc]
            constructor
            · rintro ⟨b, q, hq, hf, hfd⟩
              rw [hst.heap] at hq
              by_cases hb : b = w.next
              · rw [hb, Function.update_self] at hq
                obtain rfl := Option.some.inj hq
                exact .inr ⟨Option.some.inj (hf.symm.trans hst.shows.func),
                  hfd.symm.trans hst.shows.fd⟩
              · rw [Function.update_of_ne hb] at hq
                exact .inl ⟨b, q, hq, hf, hfd⟩
            · rintro (⟨b, q, hq, hf, hfd⟩ | ⟨rfl, rfl⟩)
              · refine ⟨b, q, ?_, hf, hfd⟩
                rw [hst.heap, Function.update_of_ne (h.lt_next hq).ne, hq]
              · exact ⟨w.next, p, by rw [hst.heap, Function.update_self], hst.shows.func,
                  hst.shows.fd⟩

variable (conf) in
/-- **A descriptor is ready.** -/
theorem ready_sees (h : Inv w) (hw : Healthy w) {tag : Nat} {ans : Answers}
    (hfresh : Fresh w.openFds ans.attempt) (hex : ¬ Exhausts w (.ready tag ans)) :
    ∃ w', step conf w (.ready tag ans) = some w' ∧
      (w'.ended = w.ended ∧ Sees w' w.openFds (Dials w) ∨
        ∃ a f source fd₀, w'.ended = w.ended ++ [(a, .called f source)] ∧ Dials w f fd₀ ∧
          (source = fd₀ ∧ w'.openFds = w.openFds ∨
            source = -1 ∧ w'.openFds = w.openFds.erase fd₀) ∧
          Sees w' w'.openFds fun f fd ↦ Dials w f fd ∧ fd ≠ fd₀) := by
  have hadm : Admissible w (.ready tag ans) := hfresh
  obtain ⟨w', hstep, hinv, hhealthy⟩ := hw.step conf h hadm hex id
  have hcases : StepEffect conf w (.ready tag ans) (step conf w (.ready tag ans)) :=
    step_cases h hadm
  refine ⟨w', hstep, ?_⟩
  rw [hstep] at hcases
  cases hcases with
  | asleep => exact .inl ⟨rfl, hinv, hhealthy, rfl, fun f fd ↦ Iff.rfl⟩
  | dropped => exact .inl ⟨rfl, hinv, hhealthy, rfl, fun f fd ↦ Iff.rfl⟩
  | @woken x ans p c _ hx hopen hp hs hwire he =>
      revert he
      cases hv : c.ready conf ans with
      | crash => exact fun he : some w' = none ↦ absurd he (Option.some_ne_none w')
      | ends source wire cs =>
          rintro ⟨_, ⟨⟩, hg⟩
          refine .inr ⟨_, c.func, source, c.fd, hg.ended, ⟨_, p, hp, hs.func, hs.fd⟩, ?_, hinv,
            hhealthy, rfl, fun f fd ↦ hg.dials h hw hp hs.fd⟩
          rw [hg.openFds]
          rcases Conn.ends_ready hv with rfl | rfl
          · exact .inr ⟨rfl, if_pos rfl⟩
          · exact .inl ⟨rfl, if_neg (ne_neg_one hs.pos)⟩
      | waits c' cs =>
          rintro ⟨_, q, y, ⟨⟩, hh, hs', -⟩
          obtain ⟨hfd, hfunc⟩ := Conn.ready_waits_same hv
          exact .inl ⟨hh.ended, hinv, hhealthy, hh.openFds, fun f fd ↦ hh.dials hs' hp
            (hs.func.trans (congrArg some hfunc.symm)) (hs.fd.trans hfd.symm)⟩
      | stuck c' cs =>
          have hexhausted := Conn.ready_eq_stuck_iff.mp ⟨c', cs, hv⟩
          exact absurd ⟨x, hx, rfl, hopen, c, ⟨p, x, hp, hx, hs, hwire⟩, hexhausted⟩ hex

end World

end TelepathyFacebook
