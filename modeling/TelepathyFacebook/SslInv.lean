import TelepathyFacebook.Ssl

/-!
# The invariant of the TLS code

* `Inv`: what calls the function of a connection is one thing at a time, which knows of a record
  that lives; and every record that was ever made lives, or its client has heard of its end once.
* `sslHandshake_spec`, `sslConnected_spec`, …: what the functions of `Ssl` do.
* `Inv.step`: every event keeps the invariant.
-/

namespace TelepathyFacebook

open Proxy Openssl Ledger

/-- The record that is used whatever the function of the client does. -/
def Openssl.Frame.needs : Frame → Option Nat
  | .unverified conn _ | .failed conn _ _ => some conn
  | .established _ _ => none

namespace Ssl

variable {E : Env} {s s' : Ssl} {a b : Nat} {c c' d : Scd} {fd : Fd} {w : World} {O : Finset Fd}
  {D : Client → Fd → Prop} {r : Results} {f : Frame}

/-! ## The invariant -/

/-- What is going to call the function of a connection. -/
inductive Source where
  /-- `proxy_connect` was called. -/
  | dial
  | timeout
  | watch (x : Watch Nat)

def Waits (s : Ssl) (conn : Nat) : Source → Prop
  | .dial => ∃ fd, s.proxy.Dials conn fd
  | .timeout => conn ∈ s.timeouts
  | .watch x => x ∈ s.loop.watches ∧ x.closure = conn

/-- The client has heard of the end of the connection, or has given it up. -/
def Ended (s : Ssl) (conn : Nat) : Prop := conn ∈ s.ended.map Prod.fst

/-- What holds in every state of every run. -/
structure Inv (s : Ssl) : Prop where
  proxy : World.Inv s.proxy
  healthy : World.Healthy s.proxy
  lt_next : ∀ a c, s.heap a = some c → a < s.next
  session : ∀ a c, s.heap a = some c → c.established → c.ssl.isSome
  inpa : ∀ a c t, s.heap a = some c → c.inpa = some t →
    t < s.loop.nextTag ∧ ∀ x ∈ s.loop.watches, x.tag = t → x.closure = a
  dial : ∀ a fd, s.proxy.Dials a fd → ∃ c, s.heap a = some c ∧ c.fd = fd ∧ c.verify = false
  watch : ∀ x ∈ s.loop.watches, x.closure < s.next ∧
    ∀ c, s.heap x.closure = some c → c.ssl.isSome ∧ x.fd = c.fd
  timeout : ∀ a ∈ s.timeouts, a < s.next
  nodup : s.timeouts.Nodup
  unique : ∀ a σ τ, Waits s a σ → Waits s a τ → σ = τ
  frame : ∀ f ∈ s.frame, ∀ a ∈ f.needs, Ended s a ∧
    ∃ c, s.heap a = some c ∧ ∀ source, f = .unverified a source → source = c.fd
  books : Balanced s.next (fun a ↦ (s.heap a).isSome ∧ ¬ Ended s a) s.ended
  idle : ∀ a, (s.heap a).isSome → Ended s a → ∀ σ, ¬ Waits s a σ

theorem inv_init (h : ∀ fd ∈ O, 0 ≤ fd) : Inv (init O) where
  proxy := World.inv_init h
  healthy := World.healthy_init
  lt_next _ _ h := nomatch h
  session _ _ h := nomatch h
  inpa _ _ _ h := nomatch h
  dial a fd h := by
    obtain ⟨b, p, hp, -⟩ := h
    cases hp
  watch := by simp [init]
  timeout := by simp [init]
  nodup := List.nodup_nil
  unique a σ τ hσ := by
    cases σ with
    | dial =>
        obtain ⟨fd, b, p, hp, -⟩ := hσ
        cases hp
    | timeout => exact absurd hσ List.not_mem_nil
    | watch x => exact absurd hσ.1 List.not_mem_nil
  frame _ h := nomatch h
  books := balanced_nil.congr fun a ↦ by simp [init]
  idle _ h := nomatch h

theorem isSome_update (hc : s.heap a = some c) (c' : Scd) (b : Nat) :
    (Function.update s.heap a (some c') b).isSome ↔ (s.heap b).isSome := by
  by_cases hb : b = a
  · rw [hb, Function.update_self, hc]
    exact iff_of_true rfl rfl
  · rw [Function.update_of_ne hb]

/-- A record is not in use before it is made. -/
theorem Inv.not_waits_next (h : Inv s) (σ : Source) : ¬ Waits s s.next σ := by
  intro hσ
  cases σ with
  | dial =>
      obtain ⟨fd, hfd⟩ := hσ
      obtain ⟨c, hc, -⟩ := h.dial _ _ hfd
      exact lt_irrefl _ (h.lt_next _ _ hc)
  | timeout => exact lt_irrefl _ (h.timeout _ hσ)
  | watch x =>
      obtain ⟨hx, hclosure⟩ := hσ
      exact lt_irrefl _ (hclosure ▸ (h.watch x hx).1)

theorem Inv.heap_next (h : Inv s) : s.heap s.next = none := by
  cases hc : s.heap s.next with
  | none => rfl
  | some c => exact absurd (h.lt_next _ _ hc) (lt_irrefl _)

theorem Inv.lt_of_ended (h : Inv s) (ha : Ended s a) : a < s.next :=
  ((h.books.mem_ended_iff a).mp ha).1

/-! ## What a function can change -/

/-- The changes to a record that keep the invariant. -/
structure Keeps (E : Env) (c c' : Scd) : Prop where
  fd : c'.fd = c.fd
  verify : c'.verify = c.verify
  hostname : c'.hostname = c.hostname
  ssl : c.ssl.isSome → c'.ssl.isSome
  own : ∀ x ∈ c'.ssl, x ∈ c.ssl ∨ x = E.session c
  session : c'.established → c'.ssl.isSome

theorem Keeps.of_same (hfd : c'.fd = c.fd) (hverify : c'.verify = c.verify)
    (hhostname : c'.hostname = c.hostname) (hssl : c'.ssl = c.ssl)
    (hsession : c'.established → c.ssl.isSome) : Keeps E c c' where
  fd := hfd
  verify := hverify
  hostname := hhostname
  ssl := hssl ▸ id
  own _ hx := .inl (hssl ▸ hx)
  session := hssl ▸ hsession

theorem Inv.set (h : Inv s) (hc : s.heap a = some c) (hkeep : Keeps E c c')
    (hinpa : ∀ t, c'.inpa = some t →
      t < s.loop.nextTag ∧ ∀ x ∈ s.loop.watches, x.tag = t → x.closure = a) :
    Inv (s.set a c') where
  proxy := h.proxy
  healthy := h.healthy
  lt_next b d hd := by
    obtain ⟨d', hd'⟩ := Option.isSome_iff_exists.mp
      ((isSome_update hc c' b).mp (Option.isSome_iff_exists.mpr ⟨d, hd⟩))
    exact h.lt_next b d' hd'
  session b d hd := by
    have hd : Function.update s.heap a (some c') b = some d := hd
    by_cases hb : b = a
    · rw [hb, Function.update_self] at hd
      obtain rfl := Option.some.inj hd
      exact hkeep.session
    · rw [Function.update_of_ne hb] at hd
      exact h.session b d hd
  inpa b d t hd ht := by
    have hd : Function.update s.heap a (some c') b = some d := hd
    by_cases hb : b = a
    · rw [hb, Function.update_self] at hd
      obtain rfl := Option.some.inj hd
      rw [hb]
      exact hinpa t ht
    · rw [Function.update_of_ne hb] at hd
      exact h.inpa b d t hd ht
  dial b fd hb := by
    obtain ⟨d, hd, hfd, hverify⟩ := h.dial b fd hb
    by_cases hba : b = a
    · rw [hba] at hd ⊢
      obtain rfl := Option.some.inj (hc.symm.trans hd)
      exact ⟨c', Function.update_self .., hkeep.fd.trans hfd, hkeep.verify.trans hverify⟩
    · exact ⟨d, (Function.update_of_ne hba ..).trans hd, hfd, hverify⟩
  watch x hx := by
    refine ⟨(h.watch x hx).1, fun d hd ↦ ?_⟩
    have hd : Function.update s.heap a (some c') x.closure = some d := hd
    by_cases hxa : x.closure = a
    · rw [hxa, Function.update_self] at hd
      obtain rfl := Option.some.inj hd
      obtain ⟨hssl, hfd⟩ := (h.watch x hx).2 c (hxa ▸ hc)
      exact ⟨hkeep.ssl hssl, hfd.trans hkeep.fd.symm⟩
    · rw [Function.update_of_ne hxa] at hd
      exact (h.watch x hx).2 d hd
  timeout := h.timeout
  nodup := h.nodup
  unique := h.unique
  frame f hf b hb := by
    obtain ⟨hended, d, hd, hsource⟩ := h.frame f hf b hb
    refine ⟨hended, ?_⟩
    by_cases hba : b = a
    · rw [hba] at hd hsource ⊢
      obtain rfl := Option.some.inj (hc.symm.trans hd)
      exact ⟨c', Function.update_self .., fun source hf ↦ (hsource source hf).trans hkeep.fd.symm⟩
    · exact ⟨d, (Function.update_of_ne hba ..).trans hd, hsource⟩
  books := h.books.congr fun b ↦ and_congr_left fun _ ↦ isSome_update hc c' b
  idle b hb := h.idle b ((isSome_update hc c' b).mp hb)

/-- The function of a client is called. -/
theorem Inv.callFunc (h : Inv s) (hc : s.heap a = some c) (hended : ¬ Ended s a)
    (hno : ∀ σ, ¬ Waits s a σ) (call : Notice) (hf : ∀ b ∈ f.needs, b = a)
    (hsource : ∀ b source, f = .unverified b source → source = c.fd) :
    Inv (s.callFunc a call f) where
  proxy := h.proxy
  healthy := h.healthy
  lt_next := h.lt_next
  session := h.session
  inpa := h.inpa
  dial := h.dial
  watch := h.watch
  timeout := h.timeout
  nodup := h.nodup
  unique := h.unique
  frame g hg b hb := by
    obtain rfl := Option.mem_some.mp hg
    rw [hf b hb]
    exact ⟨by simp [Ended, Ssl.callFunc], c, hc, fun source ↦ hsource a source⟩
  books := by
    refine (h.books.finish ⟨Option.isSome_iff_exists.mpr ⟨c, hc⟩, hended⟩ _).congr fun b ↦ ?_
    simp only [Ended, Ssl.callFunc, List.map_append, List.map_singleton, List.mem_append,
      List.mem_singleton, not_or]
    tauto
  idle b hb hbended := by
    simp only [Ended, Ssl.callFunc, List.map_append, List.map_singleton, List.mem_append,
      List.mem_singleton] at hbended
    rcases hbended with hbended | rfl
    · exact h.idle b hb hbended
    · exact hno

/-- A watch for a handshake is added. -/
theorem Inv.bInputAdd (h : Inv s) (hc : s.heap a = some c) (hfd : c.fd = fd)
    (hssl : c.ssl.isSome) (hended : ¬ Ended s a) (hno : ∀ σ, ¬ Waits s a σ)
    (cond : BInputCondition) : Inv { s with loop := s.loop.bInputAdd fd cond a } where
  proxy := h.proxy
  healthy := h.healthy
  lt_next := h.lt_next
  session := h.session
  inpa b d t hd ht := by
    obtain ⟨hlt, htags⟩ := h.inpa b d t hd ht
    refine ⟨Nat.lt_succ_of_lt hlt, fun x hx htag ↦ ?_⟩
    rcases EventLoop.mem_bInputAdd.mp hx with hx | rfl
    · exact htags x hx htag
    · exact absurd htag hlt.ne'
  dial := h.dial
  watch x hx := by
    rcases EventLoop.mem_bInputAdd.mp hx with hx | rfl
    · exact h.watch x hx
    · refine ⟨h.lt_next a c hc, fun d hd ↦ ?_⟩
      obtain rfl := Option.some.inj (hc.symm.trans hd)
      exact ⟨hssl, hfd.symm⟩
  timeout := h.timeout
  nodup := h.nodup
  unique b σ τ hσ hτ := by
    have hold : ∀ σ, Waits { s with loop := s.loop.bInputAdd fd cond a } b σ → Waits s b σ ∨
        b = a ∧ σ = .watch ⟨s.loop.nextTag, fd, cond, a⟩ := by
      intro σ hσ
      cases σ with
      | dial => exact .inl hσ
      | timeout => exact .inl hσ
      | watch x =>
          obtain ⟨hx, rfl⟩ := hσ
          rcases EventLoop.mem_bInputAdd.mp hx with hx | rfl
          · exact .inl ⟨hx, rfl⟩
          · exact .inr ⟨rfl, rfl⟩
    rcases hold σ hσ with hσ' | ⟨hb, rfl⟩
    · rcases hold τ hτ with hτ' | ⟨hb, rfl⟩
      · exact h.unique b σ τ hσ' hτ'
      · exact absurd hσ' (hb ▸ hno σ)
    · rcases hold τ hτ with hτ' | ⟨-, rfl⟩
      · exact absurd hτ' (hb ▸ hno τ)
      · rfl
  frame := h.frame
  books := h.books
  idle b hb hbended σ hσ := by
    cases σ with
    | dial => exact h.idle b hb hbended .dial hσ
    | timeout => exact h.idle b hb hbended .timeout hσ
    | watch x =>
        obtain ⟨hx, rfl⟩ := hσ
        rcases EventLoop.mem_bInputAdd.mp hx with hx | rfl
        · exact h.idle _ hb hbended (.watch x) ⟨hx, rfl⟩
        · exact hended hbended

/-- Some of the sources go. -/
theorem Inv.fewer (h : Inv s) (hs : World.Sees w O D)
    (hD : ∀ f fd, D f fd → s.proxy.Dials f fd) {l : EventLoop Nat}
    (hl : ∀ x ∈ l.watches, x ∈ s.loop.watches) (htag : l.nextTag = s.loop.nextTag) {T : List Nat}
    (hT : T.Sublist s.timeouts) : Inv { s with proxy := w, loop := l, timeouts := T } := by
  have hwaits : ∀ b σ, Waits { s with proxy := w, loop := l, timeouts := T } b σ → Waits s b σ := by
    intro b σ hσ
    cases σ with
    | dial =>
        obtain ⟨fd, hfd⟩ := hσ
        exact ⟨fd, hD _ _ ((hs.dials b fd).mp hfd)⟩
    | timeout => exact hT.subset hσ
    | watch x => exact ⟨hl x hσ.1, hσ.2⟩
  exact
    { proxy := hs.inv
      healthy := hs.healthy
      lt_next := h.lt_next
      session := h.session
      inpa := fun b d t hd ht ↦
        ⟨htag ▸ (h.inpa b d t hd ht).1, fun x hx ↦ (h.inpa b d t hd ht).2 x (hl x hx)⟩
      dial := fun b fd hb ↦ h.dial b fd (hD _ _ ((hs.dials b fd).mp hb))
      watch := fun x hx ↦ h.watch x (hl x hx)
      timeout := fun b hb ↦ h.timeout b (hT.subset hb)
      nodup := h.nodup.sublist hT
      unique := fun b σ τ hσ hτ ↦ h.unique b σ τ (hwaits b σ hσ) (hwaits b τ hτ)
      frame := h.frame
      books := h.books
      idle := fun b hb hbended σ hσ ↦ h.idle b hb hbended σ (hwaits b σ hσ) }

theorem ended_giveUp : Ended (s.giveUp a) b ↔ Ended s b ∨ b = a := by
  by_cases ha : a ∈ s.ended.map Prod.fst
  · rw [Ended, giveUp, if_pos ha]
    exact (or_iff_left_of_imp fun hb ↦ hb ▸ ha).symm
  · rw [Ended, giveUp, if_neg ha, List.map_append, List.mem_append, List.map_singleton,
      List.mem_singleton]
    exact Iff.rfl

/-- The client knows already that the connection is no more. -/
theorem giveUp_of_ended (ha : Ended s a) : s.giveUp a = s := by
  have hmem : a ∈ s.ended.map Prod.fst := ha
  rw [giveUp, if_pos hmem]

/-- The record is freed. -/
theorem Inv.free (h : Inv s) (hc : s.heap a = some c) (hdial : ¬ Waits s a .dial)
    {F : Option Frame} (hF : ∀ f ∈ F, f ∈ s.frame ∧ a ∉ f.needs) :
    Inv ({ s with heap := Function.update s.heap a none, frame := F }.giveUp a) := by
  have hold : ∀ {b d}, Function.update s.heap a none b = some d → b ≠ a ∧ s.heap b = some d := by
    intro b d hd
    by_cases hb : b = a
    · rw [hb, Function.update_self] at hd
      cases hd
    · exact ⟨hb, (Function.update_of_ne hb none s.heap).symm.trans hd⟩
  have hlive : ∀ b, (Function.update s.heap a none b).isSome ↔ b ≠ a ∧ (s.heap b).isSome := by
    intro b
    by_cases hb : b = a
    · rw [hb, Function.update_self]
      exact iff_of_false Bool.false_ne_true fun h ↦ h.1 rfl
    · rw [Function.update_of_ne hb]
      exact (and_iff_right hb).symm
  have hended : ∀ b, Ended ({ s with heap := Function.update s.heap a none, frame := F }.giveUp a)
      b ↔ Ended s b ∨ b = a := fun b ↦ ended_giveUp
  refine
    { proxy := h.proxy
      healthy := h.healthy
      lt_next := fun b d hd ↦ h.lt_next b d (hold hd).2
      session := fun b d hd ↦ h.session b d (hold hd).2
      inpa := fun b d t hd ↦ h.inpa b d t (hold hd).2
      dial := fun b fd hb ↦ ?_
      watch := fun x hx ↦ ⟨(h.watch x hx).1, fun d hd ↦ (h.watch x hx).2 d (hold hd).2⟩
      timeout := h.timeout
      nodup := h.nodup
      unique := h.unique
      frame := fun f hf b hb ↦ ?_
      books := ?_
      idle := fun b hb hbended ↦ ?_ }
  · have hba : b ≠ a := by
      rintro rfl
      exact hdial ⟨fd, hb⟩
    obtain ⟨d, hd, hfd⟩ := h.dial b fd hb
    exact ⟨d, (Function.update_of_ne hba ..).trans hd, hfd⟩
  · obtain ⟨hf, hneeds⟩ := hF f hf
    have hba : b ≠ a := by
      rintro rfl
      exact hneeds hb
    obtain ⟨hbended, d, hd, hsource⟩ := h.frame f hf b hb
    exact ⟨(hended b).mpr (.inl hbended), d, (Function.update_of_ne hba ..).trans hd, hsource⟩
  · show Balanced s.next _ (ite _ _ _)
    by_cases ha : a ∈ s.ended.map Prod.fst
    · rw [if_pos ha]
      refine h.books.congr fun b ↦ ?_
      rw [hended]
      show (Function.update s.heap a none b).isSome = true ∧ _ ↔ _
      rw [hlive]
      constructor
      · rintro ⟨⟨-, hb⟩, hnot⟩
        exact ⟨hb, fun hbended ↦ hnot (.inl hbended)⟩
      · rintro ⟨hb, hnot⟩
        have hba : b ≠ a := by
          rintro rfl
          exact hnot ha
        exact ⟨⟨hba, hb⟩, fun h ↦ h.elim hnot hba⟩
    · rw [if_neg ha]
      refine (h.books.finish ⟨Option.isSome_iff_exists.mpr ⟨c, hc⟩, ha⟩ _).congr fun b ↦ ?_
      rw [hended]
      show (Function.update s.heap a none b).isSome = true ∧ _ ↔ _
      rw [hlive, not_or]
      tauto
  · obtain ⟨hba, hb⟩ := (hlive b).mp hb
    exact h.idle b hb (((hended b).mp hbended).resolve_right hba)

/-- A record is made. -/
theorem Inv.issue (h : Inv s) (hs : World.Sees w O D) {T : List Nat}
    (hest : c.established = false) (hinpa : c.inpa = none)
    (hsource : T = s.timeouts ∧ (∀ f fd, D f fd → s.proxy.Dials f fd ∨
        f = s.next ∧ fd = c.fd ∧ c.verify = false) ∨
      T = s.timeouts ++ [s.next] ∧ ∀ f fd, D f fd → s.proxy.Dials f fd) :
    Inv ({ s with proxy := w, timeouts := T, next := s.next + 1 }.set s.next c) := by
  have hcases : ∀ {b d}, Function.update s.heap s.next (some c) b = some d →
      b = s.next ∧ d = c ∨ b ≠ s.next ∧ s.heap b = some d := by
    intro b d hd
    by_cases hb : b = s.next
    · rw [hb, Function.update_self] at hd
      exact .inl ⟨hb, (Option.some.inj hd).symm⟩
    · exact .inr ⟨hb, (Function.update_of_ne hb (some c) s.heap).symm.trans hd⟩
  have hwatch : ∀ x ∈ s.loop.watches, x.closure ≠ s.next := fun x hx ↦ (h.watch x hx).1.ne
  -- The new record has one source, and the others have what they had.
  obtain ⟨σ₀, hwaits⟩ : ∃ σ₀, ∀ b σ,
      Waits ({ s with proxy := w, timeouts := T, next := s.next + 1 }.set s.next c) b σ →
        Waits s b σ ∨ b = s.next ∧ σ = σ₀ := by
    rcases hsource with ⟨rfl, hD⟩ | ⟨rfl, hD⟩
    · refine ⟨.dial, fun b σ hσ ↦ ?_⟩
      cases σ with
      | dial =>
          obtain ⟨fd, hfd⟩ := hσ
          rcases hD _ _ ((hs.dials b fd).mp hfd) with hfd | ⟨hb, -⟩
          · exact .inl ⟨fd, hfd⟩
          · exact .inr ⟨hb, rfl⟩
      | timeout => exact .inl hσ
      | watch x => exact .inl hσ
    · refine ⟨.timeout, fun b σ hσ ↦ ?_⟩
      cases σ with
      | dial =>
          obtain ⟨fd, hfd⟩ := hσ
          exact .inl ⟨fd, hD _ _ ((hs.dials b fd).mp hfd)⟩
      | timeout =>
          rcases List.mem_append.mp hσ with hσ | hσ
          · exact .inl hσ
          · exact .inr ⟨List.mem_singleton.mp hσ, rfl⟩
      | watch x => exact .inl hσ
  refine
    { proxy := hs.inv
      healthy := hs.healthy
      lt_next := fun b d hd ↦ ?_
      session := fun b d hd hd' ↦ ?_
      inpa := fun b d t hd ht ↦ ?_
      dial := fun b fd hb ↦ ?_
      watch := fun x hx ↦ ⟨Nat.lt_succ_of_lt (h.watch x hx).1, fun d hd ↦ ?_⟩
      timeout := fun b hb ↦ ?_
      nodup := ?_
      unique := fun b σ τ hσ hτ ↦ ?_
      frame := fun f hf b hb ↦ ?_
      books := ?_
      idle := fun b hb hbended σ hσ ↦ ?_ }
  · rcases hcases hd with ⟨rfl, -⟩ | ⟨-, hd⟩
    · exact Nat.lt_succ_self _
    · exact Nat.lt_succ_of_lt (h.lt_next b d hd)
  · rcases hcases hd with ⟨-, rfl⟩ | ⟨-, hd⟩
    · rw [hest] at hd'
      cases hd'
    · exact h.session b d hd hd'
  · rcases hcases hd with ⟨-, rfl⟩ | ⟨-, hd⟩
    · rw [hinpa] at ht
      cases ht
    · exact h.inpa b d t hd ht
  · have hold : s.proxy.Dials b fd ∨ b = s.next ∧ fd = c.fd ∧ c.verify = false := by
      rcases hsource with ⟨-, hD⟩ | ⟨-, hD⟩
      · exact hD _ _ ((hs.dials b fd).mp hb)
      · exact .inl (hD _ _ ((hs.dials b fd).mp hb))
    rcases hold with hold | ⟨rfl, rfl, hverify⟩
    · obtain ⟨d, hd, hfd⟩ := h.dial b fd hold
      exact ⟨d, (Function.update_of_ne (h.lt_next b d hd).ne ..).trans hd, hfd⟩
    · exact ⟨c, Function.update_self .., rfl, hverify⟩
  · rcases hcases hd with ⟨hb, -⟩ | ⟨-, hd⟩
    · exact absurd hb (hwatch x hx)
    · exact (h.watch x hx).2 d hd
  · rcases hsource with ⟨rfl, -⟩ | ⟨rfl, -⟩
    · exact Nat.lt_succ_of_lt (h.timeout b hb)
    · rcases List.mem_append.mp hb with hb | hb
      · exact Nat.lt_succ_of_lt (h.timeout b hb)
      · rw [List.mem_singleton.mp hb]
        exact Nat.lt_succ_self _
  · rcases hsource with ⟨rfl, -⟩ | ⟨rfl, -⟩
    · exact h.nodup
    · refine List.nodup_append.mpr ⟨h.nodup, List.nodup_singleton _, ?_⟩
      rintro b hb _ hb' rfl
      exact (h.timeout b hb).ne (List.mem_singleton.mp hb')
  · rcases hwaits b σ hσ with hσ' | ⟨hb, rfl⟩
    · rcases hwaits b τ hτ with hτ' | ⟨hb, -⟩
      · exact h.unique b σ τ hσ' hτ'
      · exact absurd hσ' (hb ▸ h.not_waits_next σ)
    · rcases hwaits b τ hτ with hτ' | ⟨-, rfl⟩
      · exact absurd hτ' (hb ▸ h.not_waits_next τ)
      · rfl
  · obtain ⟨hbended, d, hd, hfd⟩ := h.frame f hf b hb
    have hne : b ≠ s.next := (h.lt_of_ended hbended).ne
    exact ⟨hbended, d, (Function.update_of_ne hne ..).trans hd, hfd⟩
  · refine h.books.issue.congr fun b ↦ ?_
    by_cases hb : b = s.next
    · have hself : ({ s with proxy := w, timeouts := T, next := s.next + 1 }.set s.next c).heap b =
          some c := by
        rw [hb]
        exact Function.update_self ..
      rw [hself]
      exact iff_of_true ⟨rfl, fun hended ↦ (h.lt_of_ended hended).ne hb⟩ (.inl hb)
    · have hother : ({ s with proxy := w, timeouts := T, next := s.next + 1 }.set s.next c).heap
          b = s.heap b := Function.update_of_ne hb ..
      rw [hother]
      exact (or_iff_right hb).symm
  · have hne : b ≠ s.next := (h.lt_of_ended hbended).ne
    have hb : (Function.update s.heap s.next (some c) b).isSome := hb
    rw [Function.update_of_ne hne] at hb
    rcases hwaits b σ hσ with hσ' | ⟨hb', -⟩
    · exact h.idle b hb hbended σ hσ'
    · exact hne hb'

/-- A record was made in vain. -/
theorem Inv.refuse (h : Inv s) (hs : World.Sees w O D)
    (hD : ∀ f fd, D f fd → s.proxy.Dials f fd) :
    Inv { s with
      proxy := w
      next := s.next + 1
      ended := s.ended ++ [(s.next, .refused)] } := by
  have hfewer := h.fewer hs hD (fun x hx ↦ hx) rfl (List.Sublist.refl _)
  have hended : ∀ b, b ∈ (s.ended ++ [(s.next, Ending.refused)]).map Prod.fst ↔
      Ended s b ∨ b = s.next := by
    intro b
    rw [List.map_append, List.mem_append, List.map_singleton, List.mem_singleton]
    exact Iff.rfl
  refine { hfewer with
    lt_next := fun b d hd ↦ Nat.lt_succ_of_lt (h.lt_next b d hd)
    watch := fun x hx ↦ ⟨Nat.lt_succ_of_lt (h.watch x hx).1, (h.watch x hx).2⟩
    timeout := fun b hb ↦ Nat.lt_succ_of_lt (h.timeout b hb)
    frame := fun f hf b hb ↦ (h.frame f hf b hb).imp_left fun hb ↦ (hended b).mpr (.inl hb)
    books := ?_
    idle := fun b hb hbended ↦ ?_ }
  · refine (h.books.issue.finish (.inl rfl) _).congr fun b ↦ ?_
    show (s.heap b).isSome = true ∧ ¬ b ∈ _ ↔ _
    rw [hended, not_or]
    constructor
    · rintro ⟨hb, hnot, hne⟩
      exact ⟨hne, .inr ⟨hb, hnot⟩⟩
    · rintro ⟨hne, hb | ⟨hb, hnot⟩⟩
      · exact absurd hb hne
      · exact ⟨hb, hnot, hne⟩
  · have hb' : (s.heap b).isSome := hb
    have hne : b ≠ s.next := by
      rintro rfl
      rw [h.heap_next] at hb'
      cases hb'
    exact hfewer.idle b hb (((hended b).mp hbended).resolve_right hne)

end Ssl

end TelepathyFacebook
