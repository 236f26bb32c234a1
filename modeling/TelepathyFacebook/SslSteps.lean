import TelepathyFacebook.SslInv

/-!
# What the functions of the TLS code do

* `sslConnected_spec`, `sslHandshakeCb_spec`: where the record of a connection lives, they call
  the function of its client or wait for another round of the handshake (`Progress`).
* `sslDisconnect_spec`: the record is freed, with the source that would have called for it.
* `isSome_step_iff`: a step crashes only in one of the ways of `Hazard`.
* `Inv.step`: every other step keeps the invariant.
-/

namespace TelepathyFacebook

open Proxy Openssl Ledger

namespace Ssl

variable {E : Env} {s s' : Ssl} {a b : Nat} {c c' d : Scd} {fd source : Fd} {w : World}
  {O : Finset Fd} {D : Client → Fd → Prop} {r : Results} {f : Frame} {cb : Bool}

/-! ## Handshakes -/

/-- What comes of a function that runs for a connection. -/
inductive Progress (E : Env) (s : Ssl) (a : Nat) (c : Scd) (source : Fd) : Ssl → Prop where
  /-- The function of the client is called. -/
  | called {c' : Scd} {call : Notice} {f : Frame} {i x : Bool} (hkeep : Keeps E c c')
      (hest : c'.established ↔ c.established ∨ call = .established)
      (hinpa : c'.inpa = c.inpa) (hneeds : ∀ b ∈ f.needs, b = a)
      (hverify : ∀ b src, f = .unverified b src → src = source ∧ c.verify)
      (hlapse : ∀ b cb, f = .failed b (-1) cb → source = -1)
      (hfail : source = -1 → c.verify = false → ∃ cb, f = .failed a (-1) cb) :
      Progress E s a c source ({ s with
        heap := Function.update s.heap a (some c')
        initialized := i
        sslCtx := x }.callFunc a call f)
  /-- There will be another round. -/
  | shakes {c' : Scd} {cond : BInputCondition} {i x : Bool} (hkeep : Keeps E c c')
      (hest : c'.established = c.established) (hssl : c'.ssl.isSome)
      (hinpa : c'.inpa = some 0 ∨ c'.inpa = some s.loop.nextTag)
      (hsource : source ≠ -1) :
      Progress E s a c source { s with
        heap := Function.update s.heap a (some c')
        loop := s.loop.bInputAdd c.fd cond a
        initialized := i
        sslCtx := x }

/-- `ssl_handshake`. -/
theorem sslHandshake_spec (hc : s.heap a = some c) (hssl : c.ssl.isSome) (hsource : source ≠ -1)
    (cb : Bool) (r : Results) :
    ∃ s', s.sslHandshake a source cb r = some s' ∧ Progress E s a c source s' := by
  obtain ⟨ssl, hsome⟩ := Option.isSome_iff_exists.mp hssl
  rw [sslHandshake, hc, Option.bind_some, hsome, Option.map_some]
  refine ⟨_, rfl, ?_⟩
  split
  · dsimp only
    split
    · exact .called (.of_same rfl rfl rfl hsome.symm fun _ ↦ hssl) (by simp) rfl
        (fun b hb ↦ (Option.some.inj hb).symm) (fun b src hf ↦ nomatch hf)
        (fun b cb hf ↦ (Frame.failed.inj hf).2.1) fun h ↦ absurd h hsource
    · exact .shakes (.of_same rfl rfl rfl hsome.symm fun _ ↦ hssl) rfl rfl (.inr rfl) hsource
  · exact .called (.of_same rfl rfl rfl hsome.symm fun _ ↦ hssl) (by simp) rfl
      (fun b hb ↦ nomatch hb) (fun b src hf ↦ nomatch hf) (fun b cb hf ↦ nomatch hf)
      fun h ↦ absurd h hsource

/-- The record may have been changed before. -/
theorem Progress.of_set {i x : Bool}
    (h : Progress E ({ s with initialized := i, sslCtx := x }.set a d) a d source s')
    (hkeep : Keeps E c d) (hest : d.established = c.established) (hinpa : d.inpa = c.inpa) :
    Progress E s a c source s' := by
  have hset : ∀ c' : Scd, Function.update (Function.update s.heap a (some d)) a (some c') =
      Function.update s.heap a (some c') := fun c' ↦ Function.update_idem ..
  have htrans : ∀ {c'}, Keeps E d c' → Keeps E c c' := fun hd ↦
    { fd := hd.fd.trans hkeep.fd
      verify := hd.verify.trans hkeep.verify
      hostname := hd.hostname.trans hkeep.hostname
      ssl := hd.ssl ∘ hkeep.ssl
      own := fun x hx ↦ by
        rcases hd.own x hx with hx | rfl
        · exact hkeep.own x hx
        · exact .inr (by simp only [Env.session, hkeep.fd, hkeep.hostname])
      session := hd.session }
  cases h with
  | @called c' call f i x hd hest' hinpa' hneeds hverify hlapse hfail =>
      simp only [set, hset]
      exact .called (htrans hd) (hest ▸ hest') (hinpa'.trans hinpa) hneeds
        (fun b src hf ↦ hkeep.verify ▸ hverify b src hf) hlapse
        fun hsource hverify ↦ hfail hsource (hkeep.verify.trans hverify)
  | @shakes c' cond i x hd hest' hssl hinpa' hsource =>
      simp only [set, hset, hkeep.fd]
      exact .shakes (htrans hd) (hest'.trans hest) hssl hinpa' hsource

/-- `ssl_handshake_cb`, up to the end or to the function of the client. -/
theorem sslHandshakeCb_spec (hc : s.heap a = some c) (hssl : c.ssl.isSome)
    (hsource : source ≠ -1) (hframe : s.frame = none) (r : Results) :
    ∃ s', s.sslHandshakeCb a source r = some s' ∧ Progress E s a c source s' := by
  obtain ⟨s', hs', hprogress⟩ := sslHandshake_spec hc hssl hsource true r
  rw [sslHandshakeCb, hs', Option.bind_some]
  cases hprogress with
  | called hkeep hest hinpa hneeds hverify hlapse hfail =>
      exact ⟨_, if_neg (Option.some_ne_none _),
        .called hkeep hest hinpa hneeds hverify hlapse hfail⟩
  | @shakes c' cond i x hkeep hest hssl' hinpa _ =>
      rw [if_pos hframe, clearInpa]
      dsimp only
      rw [Function.update_self, Option.map_some]
      refine ⟨_, rfl, ?_⟩
      simp only [set, Function.update_idem]
      exact .shakes { hkeep with } hest hssl' (.inl rfl) hsource

/-- `ssl_connected`. -/
theorem sslConnected_spec (hc : s.heap a = some c) (hsession : c.established → c.ssl.isSome)
    (source : Fd) (r : Results) :
    ∃ s', s.sslConnected E a source r = some s' ∧ Progress E s a c source s' := by
  have hself : Function.update s.heap a (some c) = s.heap :=
    Function.update_eq_self_iff.mpr hc.symm
  have hcalled : ∀ (call : Notice) (f : Frame) (i x : Bool), call ≠ .established →
      (∀ b ∈ f.needs, b = a) →
      (∀ b src, f = .unverified b src → src = source ∧ c.verify) →
      (∀ b cb, f = .failed b (-1) cb → source = -1) →
      (source = -1 → c.verify = false → ∃ cb, f = .failed a (-1) cb) →
        Progress E s a c source ({ s with initialized := i, sslCtx := x }.callFunc a call f) := by
    intro call f i x hcall hneeds hverify hlapse hfail
    have hprogress : Progress E s a c source ({ s with
        heap := Function.update s.heap a (some c)
        initialized := i
        sslCtx := x }.callFunc a call f) :=
      .called (.of_same rfl rfl rfl rfl hsession) (or_iff_left hcall).symm rfl hneeds hverify
        hlapse hfail
    rwa [hself] at hprogress
  have hfailed : ∀ i x, Progress E s a c source
      ({ s with initialized := i, sslCtx := x }.callFunc a .failed (.failed a source false)) :=
    fun i x ↦ hcalled _ _ i x nofun (fun b hb ↦ (Option.some.inj hb).symm)
      (fun b src hf ↦ nomatch hf) (fun b cb hf ↦ (Frame.failed.inj hf).2.1)
      fun hsource _ ↦ ⟨false, hsource ▸ rfl⟩
  rw [sslConnected, hc, Option.bind_some]
  split
  · next hverify =>
      refine ⟨_, rfl, hcalled _ _ s.initialized s.sslCtx nofun
        (fun b hb ↦ (Option.some.inj hb).symm)
        (fun b src hf ↦ ⟨(Frame.unverified.inj hf).2.symm, hverify⟩) (fun b cb hf ↦ nomatch hf)
        fun _ hno ↦ ?_⟩
      rw [hno] at hverify
      cases hverify
  · split
    · exact ⟨_, rfl, hfailed s.initialized s.sslCtx⟩
    · next hsource =>
        obtain ⟨i, x, hinit⟩ : ∃ i x, (if s.initialized then s else s.sslInit r) =
            { s with initialized := i, sslCtx := x } := by
          split
          · exact ⟨s.initialized, s.sslCtx, rfl⟩
          · exact ⟨_, _, rfl⟩
        dsimp only
        rw [hinit]
        split
        · obtain ⟨s', hs', hprogress⟩ := sslHandshake_spec
            (E := E) (s := { s with initialized := i, sslCtx := x }.set a
              { c with ssl := some (E.session c) }) (Function.update_self ..) rfl hsource false r
          exact ⟨s', hs', hprogress.of_set ⟨rfl, rfl, rfl, fun _ ↦ rfl,
            fun _ hx ↦ .inr (Option.mem_some.mp hx).symm, fun _ ↦ rfl⟩ rfl rfl⟩
        · exact ⟨_, rfl, hfailed i x⟩

/-- The connection whose source has fired goes on, or its client hears of it. -/
theorem Inv.of_progress (h : Inv s) (hc : s.heap a = some c) (hended : ¬ Ended s a)
    (hno : ∀ σ, ¬ Waits s a σ) (hsource : c.verify → source = c.fd)
    (hp : Progress E s a c source s') : Inv s' := by
  cases hp with
  | @called c' call f i x hkeep hest hinpa hneeds hverify hlapse hfail =>
      have hset := h.set hc hkeep fun t ht ↦ h.inpa a c t hc (hinpa ▸ ht)
      have hcall := hset.callFunc (Function.update_self ..) hended hno call hneeds
        fun b src hf ↦ ?_
      · exact { hcall with }
      · obtain ⟨rfl, hc⟩ := hverify b src hf
        exact (hsource hc).trans hkeep.fd.symm
  | @shakes c' cond i x hkeep hest hssl hinpa _ =>
      have hset := h.set hc
        ({ hkeep with } : Keeps E c { c' with inpa := none }) fun t ht ↦ nomatch ht
      have hadd := hset.bInputAdd (Function.update_self ..) hkeep.fd hssl hended hno cond
      have hlast : Inv { s with
          loop := s.loop.bInputAdd c.fd cond a
          heap := Function.update (Function.update s.heap a _) a (some c') } :=
        hadd.set (E := E) (Function.update_self ..)
          (.of_same rfl rfl rfl rfl fun _ ↦ hssl) fun t ht ↦ ?_
      · rw [Function.update_idem] at hlast
        exact { hlast with }
      · rcases hinpa with hinpa | hinpa
        · obtain rfl := Option.some.inj (ht.symm.trans hinpa)
          refine ⟨Nat.succ_pos _, fun y hy htag ↦ absurd htag ?_⟩
          exact (EventLoop.bound _ y hy).1.ne'
        · obtain rfl := Option.some.inj (ht.symm.trans hinpa)
          refine ⟨Nat.lt_succ_self _, fun y hy htag ↦ ?_⟩
          rcases EventLoop.mem_bInputAdd.mp hy with hy | rfl
          · exact absurd htag (s.loop.bound y hy).2.ne
          · rfl

/-! ## The end of a connection -/

/-- `ssl_disconnect`. -/
theorem sslDisconnect_spec (h : Inv s) (hc : s.heap a = some c) :
    ∃ w l, s.sslDisconnect a =
        some { s with proxy := w, loop := l, heap := Function.update s.heap a none } ∧
      World.Sees w (s.proxy.openFds.erase c.fd) (fun f fd ↦ s.proxy.Dials f fd ∧ fd ≠ c.fd) ∧
      l.nextTag = s.loop.nextTag ∧
      ∀ x, x ∈ l.watches ↔ x ∈ s.loop.watches ∧ c.inpa ≠ some x.tag := by
  obtain ⟨w, hw, hs⟩ := World.proxyDisconnect_sees h.proxy h.healthy c.fd
  have hssl : ¬ (c.established = true ∧ c.ssl = none) := by
    rintro ⟨hest, hnone⟩
    have hsome := h.session a c hc hest
    rw [hnone] at hsome
    cases hsome
  rw [sslDisconnect, hc, Option.bind_some]
  dsimp only
  rw [if_neg hssl]
  cases hinpa : c.inpa with
  | none =>
      refine ⟨w, s.loop, ?_, hs, rfl, fun x ↦ by simp⟩
      dsimp only
      rw [proxyDisconnect, hw, Option.map_some, Option.bind_some, sslConnFree]
      dsimp only
      rw [hc, Option.map_some]
  | some tag =>
      refine ⟨w, s.loop.bEventRemove tag, ?_, hs, rfl, fun x ↦ ?_⟩
      · dsimp only [bEventRemove]
        rw [proxyDisconnect, hw, Option.map_some, Option.bind_some, sslConnFree]
        dsimp only
        rw [hc, Option.map_some]
      · rw [EventLoop.mem_bEventRemove, ne_eq, ne_eq, Option.some.injEq, eq_comm]

/-- The watches of the others stay. -/
theorem Inv.mem_of_inpa (h : Inv s) (hc : s.heap a = some c) {x : Watch Nat}
    (hx : x ∈ s.loop.watches) (hne : x.closure ≠ a) : c.inpa ≠ some x.tag :=
  fun hinpa ↦ hne ((h.inpa a c x.tag hc hinpa).2 x hx rfl)

/-! ## Every event -/

/-- The client may still use the connection. -/
def Held (s : Ssl) (conn : Nat) : Prop :=
  (s.heap conn).isSome ∧ ∀ f ∈ s.frame, conn ∉ f.needs

/-- The descriptor of the connection is closed already, as `proxy.c` has failed to connect. -/
def Lapsed (s : Ssl) (conn : Nat) : Prop := ∃ cb, s.frame = some (.failed conn (-1) cb)

/-- The descriptor is one of a connection. -/
def Owns (s : Ssl) (fd : Fd) : Prop := ∃ a c, s.heap a = some c ∧ ¬ Lapsed s a ∧ c.fd = fd

/-- What is expected: the kernel gives out positive descriptors that are not open, as 0 is the
standard input, no retry of `proxy.c` fails with every address that is left, clients use
connections that they hold, and nobody else uses the descriptor of a connection. -/
def Proper (s : Ssl) : Event → Prop
  | .connect _ _ _ _ _ attempt => World.Fresh s.proxy.openFds attempt
  | .starttls fd _ _ _ => fd ∈ s.proxy.openFds ∧ ¬ Owns s fd
  | .disconnect conn | .transfer conn _ => Held s conn
  | .ready tag ans _ => s.frame = none →
      World.Fresh s.proxy.openFds ans.attempt ∧ ¬ World.Exhausts s.proxy (.ready tag ans)
  | .opened fd => 0 < fd ∧ fd ∉ s.proxy.openFds
  | .closed fd => ¬ Owns s fd
  | .returned | .woken _ _ | .timeout _ _ => True

/-- The steps that use a record that was freed: `ssl_handshake_cb` does after a handshake that has
failed, or if the function of the client has disconnected; a watch that `inpa` does not tell any
more and a timeout do after `ssl_disconnect`. -/
def Hazard (s : Ssl) : Event → Prop
  | .returned => (∃ conn source, s.frame = some (.failed conn source true)) ∨
      ∃ conn, s.frame = some (.established conn true) ∧ s.heap conn = none
  | .woken tag _ => s.frame = none ∧ ∃ x ∈ s.loop.watches, x.tag = tag ∧
      x.fd ∈ s.proxy.openFds ∧ s.heap x.closure = none
  | .timeout conn _ => s.frame = none ∧ conn ∈ s.timeouts ∧ s.heap conn = none
  | _ => False

/-- The source of a connection has fired. -/
structure Fired (s s₁ : Ssl) (a : Nat) (c : Scd) (source : Fd) : Prop where
  inv : Inv s₁
  heap : s₁.heap = s.heap
  frame : s.frame = none ∧ s₁.frame = none
  ended : s₁.ended = s.ended
  live : s.heap a = some c
  unheard : ¬ Ended s a
  waits : ∀ b σ, Waits s₁ b σ ↔ Waits s b σ ∧ b ≠ a
  openFds : source ≠ -1 ∧ s₁.proxy.openFds = s.proxy.openFds ∨
    source = -1 ∧ s₁.proxy.openFds = s.proxy.openFds.erase c.fd
  source : c.verify → source = c.fd

/-- What an event can do. -/
inductive StepEffect (E : Env) (s : Ssl) : Event → Option Ssl → Prop where
  | rests {e : Event} (hrest : e = .returned → s.frame = none) : StepEffect E s e (some s)
  /-- `ssl_connect` returns NULL. -/
  | refused {e : Event} {w : World} (he : e ≠ .returned)
      (hs : World.Sees w s.proxy.openFds s.proxy.Dials) :
      StepEffect E s e (some { s with
        proxy := w
        next := s.next + 1
        ended := s.ended ++ [(s.next, .refused)] })
  | dials {e : Event} {w : World} {c : Scd} (he : e ≠ .returned)
      (hfresh : c.fd ∉ s.proxy.openFds)
      (hs : World.Sees w (insert c.fd s.proxy.openFds) fun f fd ↦
        s.proxy.Dials f fd ∨ f = s.next ∧ fd = c.fd)
      (hest : c.established = false) (hssl : c.ssl = none) (hinpa : c.inpa = none)
      (hverify : c.verify = false) :
      StepEffect E s e (some ({ s with proxy := w, next := s.next + 1 }.set s.next c))
  | starts {e : Event} {c : Scd} (he : e ≠ .returned) (hopen : c.fd ∈ s.proxy.openFds)
      (hown : ¬ Owns s c.fd) (hest : c.established = false) (hssl : c.ssl = none)
      (hinpa : c.inpa = none) :
      StepEffect E s e (some ({ s with
        timeouts := s.timeouts ++ [s.next]
        next := s.next + 1 }.set s.next c))
  /-- `ssl_disconnect`, or the end of `ssl_connected`. -/
  | frees {e : Event} {a : Nat} {c : Scd} {w : World} {l : EventLoop Nat} {F : Option Frame}
      (hc : s.heap a = some c)
      (hs : World.Sees w (s.proxy.openFds.erase c.fd) fun f fd ↦ s.proxy.Dials f fd ∧ fd ≠ c.fd)
      (hl : ∀ x ∈ l.watches, x ∈ s.loop.watches)
      (hkeep : ∀ x ∈ s.loop.watches, x.closure ≠ a → x ∈ l.watches)
      (htag : l.nextTag = s.loop.nextTag)
      (hF : F = none ∧ e = .returned ∧ (∃ f ∈ s.frame, a ∈ f.needs) ∨
        F = s.frame ∧ e = .disconnect a ∧ Held s a) :
      StepEffect E s e (some ({ s with
        proxy := w
        loop := l
        heap := Function.update s.heap a none
        frame := F }.giveUp a))
  /-- The record is changed, by `ssl_read` or at the end of `ssl_handshake_cb`. -/
  | marks {e : Event} {a : Nat} {c c' : Scd} {F : Option Frame} {errno : SslErrno}
      (hc : s.heap a = some c) (hkeep : Keeps E c c')
      (hest : c'.established = c.established)
      (hinpa : c'.inpa = c.inpa ∨ c'.inpa = some 0)
      (hF : F = s.frame ∧ e ≠ .returned ∨
        F = none ∧ ∃ conn cb, s.frame = some (.established conn cb)) :
      StepEffect E s e (some { s with
        heap := Function.update s.heap a (some c')
        frame := F
        sslErrno := errno })
  /-- The function of the client of a connection that is there returns. -/
  | leaves {conn : Nat} {cb : Bool} (hframe : s.frame = some (.established conn cb)) :
      StepEffect E s .returned (some { s with frame := none })
  | progresses {e : Event} {s₁ s' : Ssl} {a : Nat} {c : Scd} {source : Fd} (he : e ≠ .returned)
      (hfired : Fired s s₁ a c source) (hp : Progress E s₁ a c source s') :
      StepEffect E s e (some s')
  /-- The watch of a closed descriptor goes. -/
  | drops {e : Event} {x : Watch Nat} (he : e ≠ .returned) (hx : x ∈ s.loop.watches)
      (hclosed : x.fd ∉ s.proxy.openFds) : StepEffect E s e (some (s.bEventRemove x.tag))
  /-- What happens to `proxy.c` does not concern the connections. -/
  | moves {e : Event} {w : World} {O : Finset Fd} (he : e ≠ .returned)
      (hs : World.Sees w O s.proxy.Dials)
      (hopen : ∀ fd, Owns s fd → fd ∈ s.proxy.openFds → fd ∈ O) :
      StepEffect E s e (some { s with proxy := w })
  | crashes {e : Event} (h : Hazard s e) : StepEffect E s e none

/-! ### The calls of clients -/

theorem connect_cases (h : Inv s) {host : Option CString} {port : Int} {verify : Bool}
    {func : Client} {getaddrinfo : CString → Nat → List SockAddr}
    {attempt : List SockAddr → Attempt}
    (hfresh : World.Fresh s.proxy.openFds attempt) :
    StepEffect E s (.connect host port verify func getaddrinfo attempt)
      ((s.sslConnect E host port verify func getaddrinfo attempt).map Prod.fst) := by
  obtain ⟨w, fd, hw, hcases⟩ := World.proxyConnect_sees E.conf h.proxy h.healthy hfresh
    host port s.next getaddrinfo
  rw [sslConnect]
  dsimp only
  rw [hw, Option.map_some, Option.map_some]
  rcases hcases with ⟨rfl, hs⟩ | ⟨hpos, hnew, hs⟩
  · exact .refused nofun hs
  · dsimp only
    rw [if_neg (not_lt.mpr hpos.le)]
    exact .dials (c := ⟨func, fd, false, false, host, none, .other, none⟩) nofun hnew hs rfl rfl
      rfl rfl

theorem transfer_cases (h : Inv s) {conn : Nat} (hheld : Held s conn) (r : Results) :
    StepEffect E s (.transfer conn r) ((s.sslTransfer conn r).map Prod.fst) := by
  obtain ⟨c, hc⟩ := Option.isSome_iff_exists.mp hheld.1
  have hself : Function.update s.heap conn (some c) = s.heap :=
    Function.update_eq_self_iff.mpr hc.symm
  have hsame : ∀ errno, StepEffect E s (.transfer conn r) (some { s with sslErrno := errno }) := by
    intro errno
    have hmarks : StepEffect E s (.transfer conn r) (some { s with
        heap := Function.update s.heap conn (some c)
        sslErrno := errno }) :=
      .marks hc (.of_same rfl rfl rfl rfl (h.session conn c hc)) rfl (.inl rfl)
        (.inl ⟨rfl, nofun⟩)
    rwa [hself] at hmarks
  rw [sslTransfer, hc, Option.bind_some]
  split
  · exact hsame _
  · next hest =>
      obtain ⟨ssl, hssl⟩ := Option.isSome_iff_exists.mp
        (h.session conn c hc (not_not.mp hest))
      rw [hssl, Option.map_some, Option.map_some]
      split
      · exact .marks hc (.of_same rfl rfl rfl hssl.symm fun _ ↦ hssl ▸ rfl) rfl (.inl rfl)
          (.inl ⟨rfl, nofun⟩)
      · exact hsame _

theorem disconnect_cases (h : Inv s) {conn : Nat} (hheld : Held s conn) :
    StepEffect E s (.disconnect conn) ((s.sslDisconnect conn).map (·.giveUp conn)) := by
  obtain ⟨c, hc⟩ := Option.isSome_iff_exists.mp hheld.1
  obtain ⟨w, l, hdisconnect, hs, htag, hl⟩ := sslDisconnect_spec h hc
  rw [hdisconnect, Option.map_some]
  exact .frees hc hs (fun x hx ↦ ((hl x).mp hx).1)
    (fun x hx hne ↦ (hl x).mpr ⟨hx, h.mem_of_inpa hc hx hne⟩) htag (.inr ⟨rfl, rfl, hheld⟩)

/-! ### The function of a client returns -/

/-- The record is freed whose client has been told. -/
theorem StepEffect.frees_ended {f : Frame} {l : EventLoop Nat} (hc : s.heap a = some c)
    (hended : Ended s a) (hframe : s.frame = some f) (hneeds : a ∈ f.needs)
    (hs : World.Sees w (s.proxy.openFds.erase c.fd) fun f fd ↦ s.proxy.Dials f fd ∧ fd ≠ c.fd)
    (hl : ∀ x ∈ l.watches, x ∈ s.loop.watches)
    (hkeep : ∀ x ∈ s.loop.watches, x.closure ≠ a → x ∈ l.watches)
    (htag : l.nextTag = s.loop.nextTag) :
    StepEffect E s .returned (some { s with
      proxy := w
      loop := l
      heap := Function.update s.heap a none
      frame := none }) := by
  have hfrees := StepEffect.frees (E := E) (F := none) hc hs hl hkeep htag
    (.inl ⟨rfl, rfl, f, hframe, hneeds⟩)
  have htold := giveUp_of_ended (s := { s with
    proxy := w
    loop := l
    heap := Function.update s.heap a none
    frame := none }) hended
  rwa [htold] at hfrees

theorem Inv.without_frame (h : Inv s) : Inv { s with frame := none } :=
  { h with frame := fun _ hf ↦ nomatch hf }

theorem returned_cases (h : Inv s) :
    StepEffect E s .returned (s.step E .returned) := by
  have hstep : ∀ f, s.frame = some f →
      s.step E .returned = { s with frame := none }.resume f := by
    intro f hf
    rw [step, hf]
  cases hframe : s.frame with
  | none =>
      rw [step, hframe]
      exact .rests fun _ ↦ hframe
  | some f =>
      rw [hstep f hframe]
      cases f with
      | unverified conn source =>
          obtain ⟨hended, c, hc, hsource⟩ := h.frame _ hframe conn rfl
          obtain rfl := hsource source rfl
          have hfrees : ∀ w, World.Sees w (s.proxy.openFds.erase c.fd)
              (fun f fd ↦ s.proxy.Dials f fd ∧ fd ≠ c.fd) →
                StepEffect E s .returned (some { s with
                  proxy := w
                  heap := Function.update s.heap conn none
                  frame := none }) := by
            intro w hs
            exact .frees_ended hc hended hframe rfl hs (fun x hx ↦ hx) (fun x hx _ ↦ hx) rfl
          rw [resume]
          split
          · obtain ⟨w, hw, hs⟩ := World.proxyDisconnect_sees h.proxy h.healthy c.fd
            rw [proxyDisconnect, hw, Option.map_some, Option.bind_some, sslConnFree]
            dsimp only
            rw [hc, Option.map_some]
            exact hfrees w hs
          · next hneg =>
              have hclosed : c.fd ∉ s.proxy.openFds := fun hmem ↦ hneg (h.proxy.nonneg _ hmem)
              rw [Option.bind_some, sslConnFree]
              dsimp only
              rw [hc, Option.map_some]
              refine hfrees s.proxy ⟨h.proxy, h.healthy, (Finset.erase_eq_of_notMem hclosed).symm,
                fun f fd ↦ (and_iff_left_of_imp ?_).symm⟩
              rintro hdials rfl
              exact hclosed (hdials.isOpen h.healthy)
      | failed conn source cb =>
          obtain ⟨hended, c, hc, -⟩ := h.frame _ hframe conn rfl
          obtain ⟨w, l, hdisconnect, hs, htag, hl⟩ := sslDisconnect_spec h.without_frame hc
          rw [resume, hdisconnect, Option.bind_some]
          cases cb with
          | true =>
              rw [if_pos rfl, clearInpa]
              dsimp only
              rw [Function.update_self]
              exact .crashes (.inl ⟨conn, source, hframe⟩)
          | false =>
              rw [if_neg Bool.false_ne_true]
              exact .frees_ended hc hended hframe rfl hs (fun x hx ↦ ((hl x).mp hx).1)
                (fun x hx hne ↦ (hl x).mpr ⟨hx, h.mem_of_inpa hc hx hne⟩) htag
      | established conn cb =>
          rw [resume]
          split
          · next hcb =>
              rw [hcb] at hframe
              rw [clearInpa]
              dsimp only
              cases hc : s.heap conn with
              | none => exact .crashes (.inr ⟨conn, hframe, hc⟩)
              | some c =>
                  exact .marks hc (.of_same rfl rfl rfl rfl (h.session conn c hc)) rfl (.inr rfl)
                    (.inr ⟨rfl, conn, true, hframe⟩)
          · exact .leaves hframe

/-! ### The main loop -/

theorem Inv.neg_one_notMem (h : Inv s) : -1 ∉ s.proxy.openFds :=
  fun hmem ↦ absurd (h.proxy.nonneg _ hmem) (by decide)

/-- A source of a record that lives is the only one. -/
theorem Inv.fired (h : Inv s) (σ₀ : Source) (hσ₀ : Waits s a σ₀) (hc : s.heap a = some c)
    (hframe : s.frame = none) {l : EventLoop Nat} {T : List Nat} {w : World}
    (hinv : Inv { s with proxy := w, loop := l, timeouts := T })
    (hwaits : ∀ b σ, Waits { s with proxy := w, loop := l, timeouts := T } b σ ↔
      Waits s b σ ∧ ¬ (b = a ∧ σ = σ₀))
    (hopen : source ≠ -1 ∧ w.openFds = s.proxy.openFds ∨
      source = -1 ∧ w.openFds = s.proxy.openFds.erase c.fd)
    (hsource : c.verify → source = c.fd) :
    Fired s { s with proxy := w, loop := l, timeouts := T } a c source where
  inv := hinv
  heap := rfl
  frame := ⟨hframe, hframe⟩
  ended := rfl
  live := hc
  unheard hended := h.idle a (Option.isSome_iff_exists.mpr ⟨c, hc⟩) hended σ₀ hσ₀
  waits b σ := by
    rw [hwaits]
    refine and_congr_right fun hσ ↦ not_congr (and_iff_left_of_imp ?_)
    rintro rfl
    exact h.unique b σ σ₀ hσ hσ₀
  openFds := hopen
  source := hsource

theorem ready_cases (h : Inv s) {tag : Nat} {ans : Answers} {r : Results}
    (hframe : s.frame = none) (hfresh : World.Fresh s.proxy.openFds ans.attempt)
    (hex : ¬ World.Exhausts s.proxy (.ready tag ans)) :
    StepEffect E s (.ready tag ans r) ((World.step E.conf s.proxy (.ready tag ans)).bind fun w ↦
      match w.ended[s.proxy.ended.length]? with
      | some (_, .called conn source) => { s with proxy := w }.sslConnected E conn source r
      | _ => some { s with proxy := w }) := by
  obtain ⟨w, hw, hcases⟩ := World.ready_sees E.conf h.proxy h.healthy hfresh hex
  rw [hw, Option.bind_some]
  rcases hcases with ⟨hended, hs⟩ | ⟨b, a, source, fd, hended, hdials, hopen, hs⟩
  · rw [hended, List.getElem?_eq_none le_rfl]
    exact .moves nofun hs fun _ _ hfd ↦ hfd
  · obtain ⟨c, hc, rfl, hverify⟩ := h.dial a fd hdials
    have hpos : 0 < c.fd := hdials.pos h.proxy h.healthy
    rw [hended, List.getElem?_append_right le_rfl, Nat.sub_self, List.getElem?_cons_zero]
    have hinv := h.fewer hs (fun f fd hfd ↦ hfd.1) (fun x hx ↦ hx) rfl (List.Sublist.refl _)
    obtain ⟨s', hs', hprogress⟩ := sslConnected_spec (E := E) (s := { s with proxy := w }) hc
      (h.session a c hc) source r
    dsimp only
    rw [hs']
    refine .progresses nofun (h.fired .dial ⟨_, hdials⟩ hc hframe hinv ?_ ?_ ?_) hprogress
    · intro b σ
      cases σ with
      | dial =>
          constructor
          · rintro ⟨fd, hfd⟩
            obtain ⟨hfd, hne⟩ := (hs.dials b fd).mp hfd
            refine ⟨⟨fd, hfd⟩, ?_⟩
            rintro ⟨rfl, -⟩
            obtain ⟨d, hd, rfl, -⟩ := h.dial b fd hfd
            exact hne (congrArg Scd.fd (Option.some.inj (hd.symm.trans hc)))
          · rintro ⟨⟨fd, hfd⟩, hne⟩
            refine ⟨fd, (hs.dials b fd).mpr ⟨hfd, ?_⟩⟩
            rintro rfl
            exact hne ⟨hfd.unique h.proxy h.healthy hdials, rfl⟩
      | timeout => exact (and_iff_left fun hσ ↦ nomatch hσ.2).symm
      | watch x => exact (and_iff_left fun hσ ↦ nomatch hσ.2).symm
    · rcases hopen with ⟨rfl, hopen⟩ | hopen
      · exact .inl ⟨World.ne_neg_one hpos, hopen⟩
      · exact .inr hopen
    · intro hc
      rw [hverify] at hc
      cases hc

/-- A watch is gone where it has fired. -/
theorem waits_bEventRemove {x : Watch Nat} (hx : x ∈ s.loop.watches) (b : Nat) (σ : Source) :
    Waits { s with loop := s.loop.bEventRemove x.tag } b σ ↔
      Waits s b σ ∧ ¬ (b = x.closure ∧ σ = .watch x) := by
  cases σ with
  | dial => exact (and_iff_left fun hσ ↦ nomatch hσ.2).symm
  | timeout => exact (and_iff_left fun hσ ↦ nomatch hσ.2).symm
  | watch y =>
      show y ∈ (s.loop.bEventRemove x.tag).watches ∧ _ ↔ _
      rw [EventLoop.mem_bEventRemove]
      constructor
      · rintro ⟨⟨hy, hne⟩, hb⟩
        refine ⟨⟨hy, hb⟩, ?_⟩
        rintro ⟨-, hyx⟩
        obtain rfl := Source.watch.inj hyx
        exact hne rfl
      · rintro ⟨⟨hy, rfl⟩, hne⟩
        refine ⟨⟨hy, fun htag ↦ hne ?_⟩, rfl⟩
        obtain rfl := EventLoop.eq_of_tag_eq hy hx htag
        exact ⟨rfl, rfl⟩

/-- A timeout is gone where it has expired. -/
theorem waits_erase (hnodup : s.timeouts.Nodup) (a b : Nat) (σ : Source) :
    Waits { s with timeouts := s.timeouts.erase a } b σ ↔
      Waits s b σ ∧ ¬ (b = a ∧ σ = .timeout) := by
  cases σ with
  | dial => exact (and_iff_left fun hσ ↦ nomatch hσ.2).symm
  | timeout =>
      show b ∈ s.timeouts.erase a ↔ _
      rw [hnodup.mem_erase_iff, and_comm]
      exact and_congr_right fun _ ↦ not_congr (and_iff_left rfl).symm
  | watch y => exact (and_iff_left fun hσ ↦ nomatch hσ.2).symm

theorem woken_cases (h : Inv s) (tag : Nat) (r : Results) :
    StepEffect E s (.woken tag r) (s.step E (.woken tag r)) := by
  rw [step]
  split
  · exact .rests nofun
  · next hframe =>
      have hframe : s.frame = none := not_not.mp hframe
      cases hcall : s.loop.gaimIoInvoke (fun fd ↦ decide (fd ∈ s.proxy.openFds)) tag with
      | none => exact .rests nofun
      | dropped =>
          dsimp only
          obtain ⟨x, hx, rfl, hclosed⟩ := EventLoop.exists_of_gaimIoInvoke_eq_dropped hcall
          exact .drops nofun hx (of_decide_eq_false hclosed)
      | call x =>
          obtain ⟨hx, rfl, hopen⟩ := EventLoop.gaimIoInvoke_eq_call_iff.mp hcall
          have hopen : x.fd ∈ s.proxy.openFds := of_decide_eq_true hopen
          dsimp only
          cases hc : s.heap x.closure with
          | none =>
              have hnone : (s.bEventRemove x.tag).heap x.closure = none := hc
              rw [sslHandshakeCb, sslHandshake, hnone]
              exact .crashes ⟨hframe, x, hx, rfl, hopen, hc⟩
          | some c =>
              obtain ⟨hssl, hfd⟩ := (h.watch x hx).2 c hc
              have hsource : x.fd ≠ -1 := fun hneg ↦ h.neg_one_notMem (hneg ▸ hopen)
              have hinv : Inv { s with
                  proxy := s.proxy
                  loop := s.loop.bEventRemove x.tag
                  timeouts := s.timeouts } :=
                h.fewer ⟨h.proxy, h.healthy, rfl, fun f fd ↦ Iff.rfl⟩ (fun f fd hfd ↦ hfd)
                  (fun y hy ↦ (EventLoop.mem_bEventRemove.mp hy).1) rfl (List.Sublist.refl _)
              obtain ⟨s', hs', hprogress⟩ := sslHandshakeCb_spec
                (s := s.bEventRemove x.tag) hc hssl hsource hframe r
              rw [hs']
              exact .progresses nofun (h.fired (.watch x) ⟨hx, rfl⟩ hc hframe hinv
                (fun b σ ↦ waits_bEventRemove hx b σ) (.inl ⟨hsource, rfl⟩) fun _ ↦ hfd) hprogress

theorem timeout_cases (h : Inv s) (conn : Nat) (r : Results) :
    StepEffect E s (.timeout conn r) (s.step E (.timeout conn r)) := by
  rw [step]
  split
  · exact .rests nofun
  · next hno =>
      obtain ⟨hframe, hmem⟩ : s.frame = none ∧ conn ∈ s.timeouts := by
        simpa [not_or] using hno
      rw [sslStarttlsReal]
      dsimp only
      cases hc : s.heap conn with
      | none => exact .crashes ⟨hframe, hmem, hc⟩
      | some c =>
          rw [Option.bind_some]
          have hinv : Inv { s with
              proxy := s.proxy
              loop := s.loop
              timeouts := s.timeouts.erase conn } :=
            h.fewer ⟨h.proxy, h.healthy, rfl, fun f fd ↦ Iff.rfl⟩ (fun f fd hfd ↦ hfd)
              (fun y hy ↦ hy) rfl List.erase_sublist
          obtain ⟨s', hs', hprogress⟩ := sslConnected_spec (E := E)
            (s := { s with timeouts := s.timeouts.erase conn }) hc (h.session conn c hc) c.fd r
          rw [hs']
          refine .progresses nofun (h.fired .timeout hmem hc hframe hinv
            (fun b σ ↦ waits_erase h.nodup conn b σ) ?_ fun _ ↦ rfl) hprogress
          by_cases hneg : c.fd = -1
          · exact .inr ⟨hneg,
              (Finset.erase_eq_of_notMem fun hmem ↦ h.neg_one_notMem (hneg ▸ hmem)).symm⟩
          · exact .inl ⟨hneg, rfl⟩

/-! ## Steps -/

variable {e : Event}

/-- No other part of the program closes the descriptor of a connection of `proxy.c`. -/
theorem Inv.owns_of_dials (h : Inv s) (hdials : s.proxy.Dials a fd) : Owns s fd := by
  obtain ⟨c, hc, rfl, -⟩ := h.dial a fd hdials
  refine ⟨a, c, hc, ?_, rfl⟩
  rintro ⟨cb, hframe⟩
  exact h.idle a (Option.isSome_iff_exists.mpr ⟨c, hc⟩) (h.frame _ hframe a rfl).1 .dial
    ⟨_, hdials⟩

/-- **Inversion of a step.** -/
theorem step_cases (h : Inv s) (hproper : Proper s e) : StepEffect E s e (step E s e) := by
  cases e with
  | connect host port verify func getaddrinfo attempt => exact connect_cases h hproper
  | starttls fd hostname verify func =>
      exact .starts (c := ⟨func, fd, false, verify && E.cafile, hostname, none, .other, none⟩) nofun
        hproper.1 hproper.2 rfl rfl rfl
  | disconnect conn => exact disconnect_cases h hproper
  | transfer conn r => exact transfer_cases h hproper r
  | returned => exact returned_cases h
  | ready tag ans r =>
      rw [step]
      split
      · exact .rests nofun
      · next hframe =>
          have hframe : s.frame = none := not_not.mp hframe
          exact ready_cases h hframe (hproper hframe).1 (hproper hframe).2
  | woken tag r => exact woken_cases h tag r
  | timeout conn r => exact timeout_cases h conn r
  | opened fd =>
      have hadm : World.Admissible s.proxy (.opened fd) := hproper
      obtain ⟨w, hw, hinv, hhealthy⟩ := h.healthy.step E.conf h.proxy hadm id id
      obtain rfl := Option.some.inj hw
      exact .moves nofun ⟨hinv, hhealthy, rfl, fun f fd ↦ World.dials_congr rfl⟩
        fun fd' _ hfd ↦ Finset.mem_insert_of_mem hfd
  | closed fd =>
      have hsteals : ¬ World.Steals s.proxy (.closed fd) := by
        rintro ⟨b, p, hp, rfl⟩
        obtain ⟨func, hfunc⟩ := Option.isSome_iff_exists.mp (h.proxy.record b p hp).1
        exact hproper (h.owns_of_dials ⟨b, p, hp, hfunc, rfl⟩)
      have hadm : World.Admissible s.proxy (.closed fd) := trivial
      obtain ⟨w, hw, hinv, hhealthy⟩ := h.healthy.step E.conf h.proxy hadm id hsteals
      obtain rfl := Option.some.inj hw
      refine .moves nofun ⟨hinv, hhealthy, rfl, fun f fd ↦ World.dials_congr rfl⟩ ?_
      intro fd' howns hfd
      refine Finset.mem_erase.mpr ⟨?_, hfd⟩
      rintro rfl
      exact hproper howns

/-- A step of these crashes. -/
theorem step_of_hazard (h : Inv s) (hhazard : Hazard s e) : step E s e = none := by
  cases e with
  | returned =>
      rcases hhazard with ⟨conn, source, hframe⟩ | ⟨conn, hframe, hc⟩
      · obtain ⟨-, c, hc, -⟩ := h.frame _ hframe conn rfl
        obtain ⟨w, l, hdisconnect, -⟩ := sslDisconnect_spec h.without_frame hc
        rw [step, hframe]
        dsimp only
        rw [resume, hdisconnect, Option.bind_some, if_pos rfl, clearInpa]
        dsimp only
        rw [Function.update_self, Option.map_none]
      · rw [step, hframe]
        dsimp only
        rw [resume, if_pos rfl, clearInpa]
        dsimp only
        rw [hc, Option.map_none]
  | woken tag r =>
      obtain ⟨hframe, x, hx, rfl, hopen, hc⟩ := hhazard
      have hcall : s.loop.gaimIoInvoke (fun fd ↦ decide (fd ∈ s.proxy.openFds)) x.tag = .call x :=
        EventLoop.gaimIoInvoke_eq_call_iff.mpr ⟨hx, rfl, decide_eq_true hopen⟩
      have hnone : (s.bEventRemove x.tag).heap x.closure = none := hc
      rw [step, if_neg (not_not.mpr hframe), hcall]
      dsimp only
      rw [sslHandshakeCb, sslHandshake, hnone]
      rfl
  | timeout conn r =>
      obtain ⟨hframe, hmem, hc⟩ := hhazard
      have hgoes : ¬ (s.frame ≠ none ∨ conn ∉ s.timeouts) := by simp [hframe, hmem]
      rw [step, if_neg hgoes, sslStarttlsReal]
      dsimp only
      rw [hc, Option.bind_none]
  | _ => exact hhazard.elim

/-- **A step crashes** only where it uses a record that was freed. -/
theorem isSome_step_iff (h : Inv s) (hproper : Proper s e) :
    (step E s e).isSome ↔ ¬ Hazard s e := by
  have hcases : StepEffect E s e (step E s e) := step_cases h hproper
  cases hs : step E s e with
  | none =>
      rw [hs] at hcases
      cases hcases with
      | crashes hhazard => exact iff_of_false Bool.false_ne_true fun hno ↦ hno hhazard
  | some s' =>
      refine iff_of_true rfl fun hhazard ↦ ?_
      rw [step_of_hazard h hhazard] at hs
      cases hs

theorem Inv.of_effect (h : Inv s) (heffect : StepEffect E s e (some s')) : Inv s' := by
  cases heffect with
  | rests => exact h
  | refused _ hs => exact h.refuse hs fun f fd hfd ↦ hfd
  | dials _ hfresh hs hest _ hinpa hverify =>
      refine h.issue hs hest hinpa (.inl ⟨rfl, fun f fd hfd ↦ ?_⟩)
      exact hfd.imp_right fun hnew ↦ ⟨hnew.1, hnew.2, hverify⟩
  | starts _ hopen hown hest _ hinpa =>
      exact h.issue ⟨h.proxy, h.healthy, rfl, fun f fd ↦ Iff.rfl⟩ hest hinpa
        (.inr ⟨rfl, fun f fd hfd ↦ hfd⟩)
  | @frees _ a c w l F hc hs hl hkeep htag hF =>
      have hfewer := h.fewer hs (fun f fd hfd ↦ hfd.1) hl htag (List.Sublist.refl _)
      refine hfewer.free hc ?_ fun f hf ↦ ?_
      · rintro ⟨fd, hfd⟩
        obtain ⟨hdials, hne⟩ := (hs.dials a fd).mp hfd
        obtain ⟨d, hd, rfl, -⟩ := h.dial a fd hdials
        exact hne (congrArg Scd.fd (Option.some.inj (hd.symm.trans hc)))
      · rcases hF with ⟨rfl, -⟩ | ⟨rfl, -, hheld⟩
        · cases hf
        · exact ⟨hf, hheld.2 f hf⟩
  | marks hc hkeep _ hinpa hF =>
      have hset := h.set hc hkeep fun t ht ↦ ?_
      · rcases hF with ⟨rfl, -⟩ | ⟨rfl, -⟩
        · exact { hset with }
        · exact { hset.without_frame with }
      · rcases hinpa with hinpa | hinpa
        · exact h.inpa _ _ t hc (hinpa ▸ ht)
        · obtain rfl := Option.some.inj (ht.symm.trans hinpa)
          exact ⟨s.loop.nextTag_pos, fun x hx htag ↦ absurd htag (s.loop.bound x hx).1.ne'⟩
  | leaves => exact h.without_frame
  | progresses _ hfired hp =>
      refine hfired.inv.of_progress (hfired.heap ▸ hfired.live) ?_ (fun σ hσ ↦ ?_) hfired.source hp
      · rw [Ended, hfired.ended]
        exact hfired.unheard
      · exact ((hfired.waits _ σ).mp hσ).2 rfl
  | drops _ hx hclosed =>
      exact h.fewer ⟨h.proxy, h.healthy, rfl, fun f fd ↦ Iff.rfl⟩ (fun f fd hfd ↦ hfd)
        (fun y hy ↦ (EventLoop.mem_bEventRemove.mp hy).1) rfl (List.Sublist.refl _)
  | moves _ hs hopen =>
      exact h.fewer hs (fun f fd hfd ↦ hfd) (fun y hy ↦ hy) rfl (List.Sublist.refl _)

/-- **Every step keeps the invariant.** -/
theorem Inv.step (h : Inv s) (hproper : Proper s e) (hs : Ssl.step E s e = some s') : Inv s' :=
  h.of_effect (hs ▸ step_cases h hproper)

end Ssl

end TelepathyFacebook
