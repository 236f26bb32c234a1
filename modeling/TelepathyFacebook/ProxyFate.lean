import TelepathyFacebook.ProxyRuns

/-!
# The fate of a connection

Results about one connection lifted to the runs of `ProxyRuns`, in which there are others.

* `Rules.run`: a property of one connection that it keeps whenever it is woken holds in every
  run of the code.
* `follow_of_run`: what becomes of a connection depends on its own answers alone.
* `called_of_heard`: its function is called after a bounded number of them.
-/

namespace TelepathyFacebook

open Proxy Ledger Runs

namespace Proxy

/-! ## One connection -/

/-- What holds after a descriptor was ready: of the connection that goes on, or of the
descriptor and the messages that it ends with. -/
def Verdict.After (P : Conn → Prop) (Q : Fd → List Message → Prop) : Verdict → Prop
  | .crash => True
  | .ends source wire _ => Q source wire
  | .waits c _ | .stuck c _ => P c

/-- Rules for a connection whose answers all meet `K`, from its start to the call of its
function. -/
structure Rules (conf : Conf) (K : Answers → Prop) (P : CString → Int → Conn → Prop)
    (Q : CString → Int → Fd → List Message → Prop) : Prop where
  dial : ∀ {host port func getaddrinfo attempt c}, 0 < port → host.bytes.length ≤ 128 →
    Conn.dial conf host port func getaddrinfo attempt = some c → P host port c
  ready : ∀ {host port c ans}, K ans → P host port c →
    (c.ready conf ans).After (P host port) (Q host port)

/-- What becomes of a connection. -/
inductive Fate where
  | waits (c : Conn)
  | ended (source : Fd) (wire : List Message)
  | lost
deriving DecidableEq

/-- The connection by itself, with its answers one after the other. -/
def Conn.follow (conf : Conf) (c : Conn) : List Answers → Fate
  | [] => .waits c
  | ans :: answers =>
      match c.ready conf ans with
      | .waits c' _ => c'.follow conf answers
      | .ends source wire _ => .ended source wire
      | .stuck _ _ | .crash => .lost

theorem Conn.measure_pos (c : Conn) : 0 < c.measure := by
  rw [measure]
  split
  · exact Nat.succ_pos _
  · next f _ => cases f <;> decide

/-- A connection that still waits has not used up its measure. -/
theorem Conn.follow_waits {conf : Conf} {c c' : Conn} {answers : List Answers} (hc : c.Hopeful)
    (h : c.follow conf answers = .waits c') : answers.length + c'.measure ≤ c.measure := by
  induction answers generalizing c with
  | nil =>
      obtain rfl := Fate.waits.inj h
      exact (Nat.zero_add _).le
  | cons ans answers ih =>
      rw [follow] at h
      split at h
      · next d cs hv =>
          obtain ⟨hlt, hd⟩ := measure_ready hc hv
          have hle := ih hd h
          rw [List.length_cons]
          omega
      · cases h
      · cases h
      · cases h

theorem Conn.measure_dial {conf : Conf} {host : CString} {port : Int} {func : Client}
    {getaddrinfo : CString → Nat → List SockAddr} {attempt : List SockAddr → Attempt} {c : Conn}
    (h : dial conf host port func getaddrinfo attempt = some c) :
    c.func = func ∧ c.measure ≤ (addresses conf host port getaddrinfo).length + 3 := by
  obtain ⟨⟨fd, left⟩, htried, rfl⟩ := Option.map_eq_some_iff.mp h
  exact ⟨rfl, Nat.add_le_add_right (suffix_of_firstPending htried).1.length_le 3⟩

end Proxy

namespace World

variable {conf : Conf} {w w' : World} {a b : Nat} {p q : PHB} {c d : Conn}
  {x : Watch (Handler × Nat)} {O : Finset Fd} {cs : List (Fd × Bool)} {o : Outcome}
  {host : CString} {port : Int} {e : Event} {es : List Event}

theorem Gone.ne_of_pending {fd : Fd} {wire : List Message}
    (hg : Gone w w' b fd o wire O cs) (hd : Pending w' a d) : a ≠ b := by
  rintro rfl
  obtain ⟨p, -, hp, -⟩ := hd
  rw [hg.heap, Function.update_self] at hp
  cases hp

theorem Holds.pending (hh : Holds w w' a p (some x) c.wire O cs) (hs : Shows c a p x) :
    Pending w' a c :=
  ⟨p, x, hh.heap_self, (hh.watches x).mpr (.inr rfl), hs, by rw [hh.wire, Function.update_self]⟩

theorem Shows.owner_of_some (hs : Shows c a p x) :
    ∀ z, some x = some z → z.closure.2 = a := by
  rintro _ ⟨⟩
  exact hs.owner

/-! ## What has ended -/

/-- What has ended stays as it was. -/
theorem Inv.ended_step (h : Inv w) (hadm : Admissible w e)
    (hw : World.step conf w e = some w') (ha : (a, o) ∈ w.ended) :
    (a, o) ∈ w'.ended ∧ w'.wire a = w.wire a ∧ w'.asked a = w.asked a := by
  obtain ⟨hlt, hdead⟩ := (h.books.mem_ended_iff a).mp (List.mem_map_of_mem ha)
  have hne : a ≠ w.next := Nat.ne_of_lt hlt
  have hlive : ∀ {b p}, w.heap b = some p → a ≠ b := by
    rintro b p hp rfl
    exact hdead (by rw [hp, Option.isSome_some])
  have hcases : StepEffect conf w e (World.step conf w e) := step_cases h hadm
  rw [hw] at hcases
  cases hcases with
  | rejected => exact ⟨ha, rfl, rfl⟩
  | started _ _ _ _ hst =>
      exact ⟨hst.ended ▸ ha, by rw [hst.wire], by rw [hst.asked, Function.update_of_ne hne]⟩
  | refused hr =>
      exact ⟨hr.ended ▸ List.mem_append_left _ ha, by rw [hr.wire],
        by rw [hr.asked, Function.update_of_ne hne]⟩
  | disconnected hmem hhash hg =>
      obtain ⟨p, hp, -⟩ := Option.map_eq_some_iff.mp (h.table.value _ hmem)
      exact ⟨hg.ended ▸ List.mem_append_left _ ha,
        by rw [hg.wire, Function.update_of_ne (hlive hp)], by rw [hg.asked]⟩
  | unknown _ => exact ⟨ha, rfl, rfl⟩
  | asleep _ => exact ⟨ha, rfl, rfl⟩
  | dropped _ _ => exact ⟨ha, rfl, rfl⟩
  | @woken x ans p c _ _ _ hp _ _ he =>
      revert he
      cases c.ready conf ans with
      | crash => exact fun he : some w' = none ↦ absurd he (Option.some_ne_none w')
      | ends source wire cs =>
          rintro ⟨_, ⟨⟩, hg⟩
          exact ⟨hg.ended ▸ List.mem_append_left _ ha,
            by rw [hg.wire, Function.update_of_ne (hlive hp)], by rw [hg.asked]⟩
      | waits c' cs =>
          rintro ⟨_, _, _, ⟨⟩, hh, -⟩
          exact ⟨hh.ended ▸ ha, by rw [hh.wire, Function.update_of_ne (hlive hp)],
            by rw [hh.asked]⟩
      | stuck c' cs =>
          rintro ⟨_, _, _, ⟨⟩, hh, -⟩
          exact ⟨hh.ended ▸ ha, by rw [hh.wire, Function.update_of_ne (hlive hp)],
            by rw [hh.asked]⟩
  | opened _ _ => exact ⟨ha, rfl, rfl⟩
  | closed => exact ⟨ha, rfl, rfl⟩

/-! ## Where connections come from -/

/-- A connection that is under way after a step was so before it, or has waited for what
happened, or is new. -/
theorem Inv.pending_step (h : Inv w) (hadm : Admissible w e) (hw : World.step conf w e = some w')
    (hd : Pending w' a d) :
    (Pending w a d ∧ w'.asked a = w.asked a) ∨
    (∃ c tag ans cs, e = .ready tag ans ∧ Pending w a c ∧ w'.asked a = w.asked a ∧
      (c.ready conf ans = .waits d cs ∨ c.ready conf ans = .stuck d cs)) ∨
    ∃ host port func getaddrinfo attempt, 0 < port ∧ host.bytes.length ≤ 128 ∧
      Conn.dial conf host port func getaddrinfo attempt = some d ∧
      w'.asked a = some (host, port) := by
  have hcases : StepEffect conf w e (World.step conf w e) := step_cases h hadm
  rw [hw] at hcases
  cases hcases with
  | rejected => exact .inl ⟨hd, rfl⟩
  | started hport hlen hdial _ hst =>
      by_cases ha : a = w.next
      · have hwire := (h.unused _ le_rfl).trans (dial_fd hadm hdial).2.1.symm
        have hnew := hst.pending hwire
        rw [ha] at hd ⊢
        obtain rfl := hd.unique (h.of_started hst (dial_fd hadm hdial).2.1) hnew
        refine .inr (.inr ⟨_, _, _, _, _, hport, hlen, hdial, ?_⟩)
        rw [hst.asked, Function.update_self]
      · exact .inl ⟨(hst.pending_iff ha).mp hd, by rw [hst.asked, Function.update_of_ne ha]⟩
  | refused hr =>
      rw [Pending, hr.heap, hr.loop, hr.wire] at hd
      obtain ⟨p, x, hp, hx⟩ := hd
      refine .inl ⟨⟨p, x, hp, hx⟩, ?_⟩
      rw [hr.asked, Function.update_of_ne (h.lt_next hp).ne]
  | disconnected hmem hhash hg =>
      have ha : a ≠ _ := hg.ne_of_pending hd
      exact .inl ⟨(hg.pending_iff ha).mp hd, by rw [hg.asked]⟩
  | unknown _ => exact .inl ⟨hd, rfl⟩
  | asleep _ => exact .inl ⟨hd, rfl⟩
  | dropped _ _ =>
      obtain ⟨p, y, hp, hy, hs⟩ := hd
      exact .inl ⟨⟨p, y, hp, (EventLoop.mem_bEventRemove.mp hy).1, hs⟩, rfl⟩
  | @woken x ans p c _ hx hopen hp hs hwire he =>
      have hc : Pending w x.closure.2 c := ⟨p, x, hp, hx, hs, hwire⟩
      have hinv : Inv w' := h.step hadm hw
      revert he
      cases hv : c.ready conf ans with
      | crash => exact fun he : some w' = none ↦ absurd he (Option.some_ne_none w')
      | ends source wire cs =>
          rintro ⟨_, ⟨⟩, hg⟩
          exact .inl ⟨(hg.pending_iff (hg.ne_of_pending hd)).mp hd, by rw [hg.asked]⟩
      | waits c' cs =>
          rintro ⟨_, q, y, ⟨⟩, hh, hs', -⟩
          by_cases ha : a = x.closure.2
          · rw [ha] at hd ⊢
            obtain rfl := hd.unique hinv (hh.pending hs')
            exact .inr (.inl ⟨c, _, ans, cs, rfl, hc, by rw [hh.asked], .inl hv⟩)
          · exact .inl ⟨(hh.pending_iff (hs'.owner_of_some) ha).mp hd, by rw [hh.asked]⟩
      | stuck c' cs =>
          rintro ⟨_, q, y, ⟨⟩, hh, hs', -⟩
          by_cases ha : a = x.closure.2
          · rw [ha] at hd ⊢
            obtain rfl := hd.unique hinv (hh.pending hs')
            exact .inr (.inl ⟨c, _, ans, cs, rfl, hc, by rw [hh.asked], .inr hv⟩)
          · exact .inl ⟨(hh.pending_iff (hs'.owner_of_some) ha).mp hd, by rw [hh.asked]⟩
  | opened _ _ => exact .inl ⟨hd, rfl⟩
  | closed => exact .inl ⟨hd, rfl⟩

/-- A function that was called after a step was so before it, or its connection has ended. -/
theorem Inv.called_step (h : Inv w) (hadm : Admissible w e) (hw : World.step conf w e = some w')
    {f : Client} {s : Fd} (ha : (a, .called f s) ∈ w'.ended) :
    (a, .called f s) ∈ w.ended ∨
    ∃ c tag ans cs, e = .ready tag ans ∧ Pending w a c ∧ w'.asked a = w.asked a ∧
      c.ready conf ans = .ends s (w'.wire a) cs := by
  have hcases : StepEffect conf w e (World.step conf w e) := step_cases h hadm
  rw [hw] at hcases
  cases hcases with
  | rejected => exact .inl ha
  | started _ _ _ _ hst => exact .inl (hst.ended ▸ ha)
  | refused hr =>
      rw [hr.ended, List.mem_append, List.mem_singleton] at ha
      rcases ha with ha | ha
      · exact .inl ha
      · cases ha
  | disconnected _ _ hg =>
      rw [hg.ended, List.mem_append, List.mem_singleton] at ha
      rcases ha with ha | ha
      · exact .inl ha
      · cases ha
  | unknown _ => exact .inl ha
  | asleep _ => exact .inl ha
  | dropped _ _ => exact .inl ha
  | @woken x ans p c _ hx hopen hp hs hwire he =>
      revert he
      cases hv : c.ready conf ans with
      | crash => exact fun he : some w' = none ↦ absurd he (Option.some_ne_none w')
      | ends source wire cs =>
          rintro ⟨_, ⟨⟩, hg⟩
          rw [hg.ended, List.mem_append, List.mem_singleton] at ha
          rcases ha with ha | ha
          · exact .inl ha
          · obtain ⟨rfl, hcalled⟩ := Prod.mk.inj ha
            obtain ⟨-, rfl⟩ := Outcome.called.inj hcalled
            refine .inr ⟨c, _, ans, cs, rfl, ⟨p, x, hp, hx, hs, hwire⟩, by rw [hg.asked], ?_⟩
            rw [hg.wire, Function.update_self, hv]
      | waits c' cs =>
          rintro ⟨_, _, _, ⟨⟩, hh, -⟩
          exact .inl (hh.ended ▸ ha)
      | stuck c' cs =>
          rintro ⟨_, _, _, ⟨⟩, hh, -⟩
          exact .inl (hh.ended ▸ ha)
  | opened _ _ => exact .inl ha
  | closed => exact .inl ha

/-! ## Rules -/

variable {K : Answers → Prop} {P : CString → Int → Conn → Prop}
  {Q : CString → Int → Fd → List Message → Prop}

/-- The connections are as `P` and `Q` say, for what was asked for. -/
structure Obeys (P : CString → Int → Conn → Prop) (Q : CString → Int → Fd → List Message → Prop)
    (w : World) : Prop where
  pending : ∀ a c, Pending w a c → ∃ host port, w.asked a = some (host, port) ∧ P host port c
  called : ∀ a f s, (a, .called f s) ∈ w.ended →
    ∃ host port, w.asked a = some (host, port) ∧ Q host port s (w.wire a)

/-- The answers of an event meet `K`. -/
def Answered (K : Answers → Prop) : Event → Prop
  | .ready _ ans => K ans
  | _ => True

/-- **One step.** -/
theorem Obeys.step (hr : Rules conf K P Q) (h : Inv w) (ho : Obeys P Q w) (hadm : Admissible w e)
    (hK : Answered K e) (hw : World.step conf w e = some w') : Obeys P Q w' := by
  constructor
  · intro a d hd
    rcases h.pending_step hadm hw hd with
      ⟨hd, hasked⟩ | ⟨c, tag, ans, cs, rfl, hc, hasked, hv⟩ |
        ⟨host, port, func, getaddrinfo, attempt, hport, hlen, hdial, hasked⟩
    · rw [hasked]
      exact ho.pending a d hd
    · obtain ⟨host, port, hself, hP⟩ := ho.pending a c hc
      have hafter := hr.ready hK hP
      refine ⟨host, port, hasked.trans hself, ?_⟩
      rcases hv with hv | hv
      · rwa [hv] at hafter
      · rwa [hv] at hafter
    · exact ⟨host, port, hasked, hr.dial hport hlen hdial⟩
  · intro a f s ha
    rcases h.called_step hadm hw ha with hold | ⟨c, tag, ans, cs, rfl, hc, hasked, hv⟩
    · obtain ⟨-, hwire, hasked⟩ := h.ended_step hadm hw hold
      rw [hwire, hasked]
      exact ho.called a f s hold
    · obtain ⟨host, port, hself, hP⟩ := ho.pending a c hc
      have hafter := hr.ready hK hP
      rw [hv] at hafter
      exact ⟨host, port, hasked.trans hself, hafter⟩

/-- **Runs.**  What one connection keeps holds in every run of the code, when a function is
called. -/
theorem Rules.run (hr : Rules conf K P Q) (hO : ∀ fd ∈ O, 0 ≤ fd)
    (hadm : Along conf (fun w e ↦ Admissible w e ∧ Answered K e) (init O) es) :
    ∀ w ∈ World.run conf (init O) es, ∀ a f s, (a, .called f s) ∈ w.ended →
      ∃ host port, w.asked a = some (host, port) ∧ Q host port s (w.wire a) := by
  have hstart : Inv (init O) ∧ Obeys P Q (init O) := by
    refine ⟨inv_init hO, fun a c hc ↦ ?_, fun a f s ha ↦ ?_⟩
    · obtain ⟨p, -, hp, -⟩ := hc
      cases hp
    · cases ha
  have halways := Steps.always (P := fun t : Option World ↦ ∀ w ∈ t, Inv w ∧ Obeys P Q w)
    (fun t e ht hadm ↦ forall_mem_crashing fun w hw w' hw' ↦
      ⟨(ht w hw).1.step (hadm w hw).1 hw',
        (ht w hw).2.step hr (ht w hw).1 (hadm w hw).1 (hadm w hw).2 hw'⟩)
    (by rintro _ ⟨⟩; exact hstart) hadm
  exact fun w hw ↦ (halways.last w hw).2.called

/-! ## Independence -/

/-- The answers of an event for the connection, if one of its functions is called. -/
def hears (w : World) (a : Nat) : Event → Option Answers
  | .ready tag ans =>
      match w.loop.gaimIoInvoke (fun fd ↦ fd ∈ w.openFds) tag with
      | .call x => if x.closure.2 = a then some ans else none
      | .none | .dropped => none
  | _ => none

/-- The answers that a connection gets in a run. -/
def heard (conf : Conf) (a : Nat) : World → List Event → List Answers
  | _, [] => []
  | w, e :: es =>
      (w.hears a e).toList ++
        match step conf w e with
        | some w' => heard conf a w' es
        | none => []

/-- `proxy_disconnect` is called for the connection. -/
def GivesUp (w : World) (a : Nat) : Event → Prop
  | .disconnect fd => ∃ p, w.heap a = some p ∧ p.fd = fd
  | _ => False

/-- The kernel keeps its promise, no retry runs out of addresses, nobody else closes the
descriptor of a connection, and this one is not given up. -/
structure Undisturbed (a : Nat) (w : World) (e : Event) : Prop where
  admissible : Admissible w e
  exhausts : ¬ Exhausts w e
  steals : ¬ Steals w e
  givesUp : ¬ GivesUp w a e

/-- The record is what has become of the connection. -/
def Meets (w : World) (a : Nat) (func : Client) : Fate → Prop
  | .waits c => Pending w a c ∧ c.func = func
  | .ended source wire => (a, .called func source) ∈ w.ended ∧ w.wire a = wire
  | .lost => False

theorem hears_of_open {ans : Answers} (hx : x ∈ w.loop.watches) (hopen : x.fd ∈ w.openFds) :
    w.hears a (.ready x.tag ans) = if x.closure.2 = a then some ans else none := by
  have hcall : w.loop.gaimIoInvoke (fun fd ↦ fd ∈ w.openFds) x.tag = .call x :=
    EventLoop.gaimIoInvoke_eq_call_iff.mpr ⟨hx, rfl, decide_eq_true hopen⟩
  rw [hears, hcall]

theorem hears_of_closed {tag : Nat} {ans : Answers}
    (hno : ∀ x ∈ w.loop.watches, x.tag = tag → x.fd ∉ w.openFds) :
    w.hears a (.ready tag ans) = none := by
  rw [hears]
  cases hcall : w.loop.gaimIoInvoke (fun fd ↦ fd ∈ w.openFds) tag with
  | none => rfl
  | dropped => rfl
  | call x =>
      obtain ⟨hx, htag, hopen⟩ := EventLoop.gaimIoInvoke_eq_call_iff.mp hcall
      exact absurd (of_decide_eq_true hopen) (hno x hx htag)

/-- **One step.** -/
theorem Healthy.step_pending (h : Inv w) (hw : Healthy w) (hc : Pending w a c)
    (hu : Undisturbed a w e) (hw' : World.step conf w e = some w') :
    match w.hears a e with
    | none => Pending w' a c
    | some ans =>
      match c.ready conf ans with
      | .waits c' _ => Pending w' a c'
      | .ends source wire _ => (a, .called c.func source) ∈ w'.ended ∧ w'.wire a = wire
      | .stuck _ _ | .crash => False := by
  have hcases : StepEffect conf w e (World.step conf w e) := step_cases h hu.admissible
  rw [hw'] at hcases
  cases hcases with
  | rejected => exact hc
  | started _ _ _ _ hst =>
      obtain ⟨p, -, hp, -⟩ := id hc
      exact (hst.pending_iff (h.lt_next hp).ne).mpr hc
  | refused hr =>
      show Pending w' a c
      rwa [Pending, hr.heap, hr.loop, hr.wire]
  | disconnected hmem hhash hg =>
      obtain ⟨p, hp, hfd⟩ := Option.map_eq_some_iff.mp (h.table.value _ hmem)
      refine (hg.pending_iff ?_).mpr hc
      rintro rfl
      exact hu.givesUp ⟨p, hp, hfd.trans hhash⟩
  | unknown _ => exact hc
  | asleep hno =>
      rw [hears_of_closed hno]
      exact hc
  | @dropped x ans hx hclosed =>
      obtain ⟨p, c', hp, hs, -⟩ := h.watch x hx
      have hopen : x.fd ∈ w.openFds := by
        rw [hs.watchFd, ← hs.fd]
        exact (hw _ p hp).isOpen
      exact absurd hopen hclosed
  | @woken x ans p d _ hx hopen hp hs hwire he =>
      have hd : Pending w x.closure.2 d := ⟨p, x, hp, hx, hs, hwire⟩
      rw [hears_of_open hx hopen]
      by_cases ha : x.closure.2 = a
      · rw [if_pos ha]
        rw [ha] at hd he
        obtain rfl := hc.unique h hd
        revert he
        dsimp only
        cases hv : c.ready conf ans with
        | crash => exact fun he : some w' = none ↦ absurd he (Option.some_ne_none w')
        | ends source wire cs =>
            rintro ⟨_, ⟨⟩, hg⟩
            refine ⟨?_, by rw [hg.wire, Function.update_self]⟩
            rw [hg.ended]
            exact List.mem_append_right _ (List.mem_singleton_self _)
        | waits c' cs =>
            rintro ⟨_, q, y, ⟨⟩, hh, hs', -⟩
            exact hh.pending hs'
        | stuck c' cs =>
            have hex := Conn.ready_eq_stuck_iff.mp ⟨c', cs, hv⟩
            exact absurd ⟨x, hx, rfl, hopen, c, ha ▸ hd, hex⟩ hu.exhausts
      · rw [if_neg ha]
        have hne : a ≠ x.closure.2 := fun h ↦ ha h.symm
        revert he
        cases d.ready conf ans with
        | crash => exact fun he : some w' = none ↦ absurd he (Option.some_ne_none w')
        | ends source wire cs =>
            rintro ⟨_, ⟨⟩, hg⟩
            exact (hg.pending_iff hne).mpr hc
        | waits c' cs =>
            rintro ⟨_, q, y, ⟨⟩, hh, hs', -⟩
            exact (hh.pending_iff hs'.owner_of_some hne).mpr hc
        | stuck c' cs =>
            rintro ⟨_, q, y, ⟨⟩, hh, hs', -⟩
            exact (hh.pending_iff hs'.owner_of_some hne).mpr hc
  | opened _ _ => exact hc
  | closed => exact hc

theorem Undisturbed.step {t : Option World} (h : Inv w) (hw : Healthy w)
    (hu : ∀ w' ∈ some w, Undisturbed a w' e) (ht : World.step conf w e = t) :
    ∃ w', t = some w' ∧ Inv w' ∧ Healthy w' := by
  have hu := hu w rfl
  obtain ⟨w', hw', hhealthy⟩ := (healthy_step_iff h hw hu.admissible).mpr ⟨hu.exhausts, hu.steals⟩
  exact ⟨w', ht.symm.trans hw', h.step hu.admissible hw', hhealthy⟩

/-- A connection that has ended hears nothing more. -/
theorem Inv.hears_of_ended (h : Inv w) (ha : (a, o) ∈ w.ended) (e : Event) :
    w.hears a e = none := by
  have hdead : ¬ (w.heap a).isSome := ((h.books.mem_ended_iff a).mp (List.mem_map_of_mem ha)).2
  cases e with
  | ready tag ans =>
      rw [hears]
      split
      · next x hcall =>
          refine if_neg ?_
          rintro rfl
          obtain ⟨p, -, hp, -⟩ := h.watch x (EventLoop.gaimIoInvoke_eq_call_iff.mp hcall).1
          rw [hp] at hdead
          exact hdead rfl
      · rfl
      · rfl
  | _ => rfl

/-- What has ended stays so in a run. -/
theorem ended_run (h : Inv w) (hw : Healthy w) (ha : (a, o) ∈ w.ended)
    (hes : Along conf (Undisturbed a) w es) :
    heard conf a w es = [] ∧
      ∃ w', run conf w es = some w' ∧ (a, o) ∈ w'.ended ∧ w'.wire a = w.wire a := by
  induction es generalizing w with
  | nil => exact ⟨rfl, w, rfl, ha, rfl⟩
  | cons e es ih =>
      obtain ⟨hu, hes⟩ := hes
      obtain ⟨w', hw', hinv, hhealthy⟩ := Undisturbed.step h hw hu rfl
      obtain ⟨ha', hwire, -⟩ := h.ended_step (hu w rfl).admissible hw' ha
      rw [crashing_some, hw'] at hes
      obtain ⟨hnil, w'', hrun, ha'', hwire'⟩ := ih hinv hhealthy ha' hes
      refine ⟨?_, w'', ?_, ha'', hwire'.trans hwire⟩
      · rw [heard, h.hears_of_ended ha, hw']
        exact hnil
      · rw [run, List.foldl_cons, crashing_some, hw']
        exact hrun

/-- **Independence.**  Whatever happens to the others, a connection does what it does by itself
with the answers it hears, of which it hears a bounded number. -/
theorem follow_run (h : Inv w) (hw : Healthy w) (hc : Pending w a c) (hhope : c.Hopeful)
    (hes : Along conf (Undisturbed a) w es) :
    (heard conf a w es).length ≤ c.measure ∧
      ∃ w', run conf w es = some w' ∧ Meets w' a c.func (c.follow conf (heard conf a w es)) := by
  induction es generalizing w c with
  | nil => exact ⟨Nat.zero_le _, w, rfl, hc, rfl⟩
  | cons e es ih =>
      obtain ⟨hu, hes⟩ := hes
      obtain ⟨w', hw', hinv, hhealthy⟩ := Undisturbed.step h hw hu rfl
      have hstep := hw.step_pending h hc (hu w rfl) hw'
      rw [crashing_some, hw'] at hes
      rw [heard, hw', run, List.foldl_cons, crashing_some, hw']
      dsimp only
      cases hhears : w.hears a e with
      | none =>
          rw [hhears] at hstep
          exact ih hinv hhealthy hstep hhope hes
      | some ans =>
          rw [hhears] at hstep
          dsimp only at hstep
          rw [Option.toList_some, List.singleton_append, List.length_cons, Conn.follow]
          cases hv : c.ready conf ans with
          | crash => exact absurd hstep (by rw [hv]; exact id)
          | stuck c' cs => exact absurd hstep (by rw [hv]; exact id)
          | ends source wire cs =>
              rw [hv] at hstep
              obtain ⟨hnil, w'', hrun, ha, hwire⟩ := ended_run hinv hhealthy hstep.1 hes
              rw [hnil]
              exact ⟨c.measure_pos, w'', hrun, ha, hwire.trans hstep.2⟩
          | waits c' cs =>
              rw [hv] at hstep
              obtain ⟨hlt, hhope'⟩ := Conn.measure_ready hhope hv
              obtain ⟨hle, w'', hrun, hmeets⟩ := ih hinv hhealthy hstep hhope' hes
              rw [(Conn.ready_waits_same hv).2] at hmeets
              exact ⟨by omega, w'', hrun, hmeets⟩

/-- The kernel keeps its promise, no retry runs out of addresses, and nobody else closes the
descriptor of a connection. -/
structure Calm (w : World) (e : Event) : Prop where
  admissible : Admissible w e
  exhausts : ¬ Exhausts w e
  steals : ¬ Steals w e

theorem calm_run (h : Inv w) (hw : Healthy w) (hes : Along conf Calm w es) :
    ∀ w' ∈ run conf w es, Inv w' ∧ Healthy w' := by
  refine (Steps.always (P := fun t : Option World ↦ ∀ w ∈ t, Inv w ∧ Healthy w)
    (fun t e ht hcalm ↦ forall_mem_crashing fun w hw w' hw' ↦ ?_) ?_ hes).last
  · obtain ⟨hinv, hhealthy⟩ := ht w hw
    obtain ⟨hadm, hex, hst⟩ := hcalm w hw
    obtain ⟨v, hv, hhealthy'⟩ := (healthy_step_iff hinv hhealthy hadm).mpr ⟨hex, hst⟩
    obtain rfl := Option.some.inj (hw'.symm.trans hv)
    exact ⟨hinv.step hadm hw', hhealthy'⟩
  · rintro _ ⟨⟩
    exact ⟨h, hw⟩

theorem Undisturbed.calm (h : Undisturbed a w e) : Calm w e := ⟨h.admissible, h.exhausts, h.steals⟩

theorem step_of_dial {func : Client} {getaddrinfo : CString → Nat → List SockAddr}
    {attempt : List SockAddr → Attempt} (h : Inv w) (hport : 0 < port)
    (hlen : host.bytes.length ≤ 128)
    (hadm : Admissible w (.connect (some host) port (some func) getaddrinfo attempt))
    (hdial : Conn.dial conf host port func getaddrinfo attempt = some c) :
    ∃ w', World.step conf w (.connect (some host) port (some func) getaddrinfo attempt) = some w' ∧
      Pending w' w.next c := by
  have hspec := proxyConnect_spec conf func getaddrinfo h hadm hport hlen
  rw [hdial] at hspec
  obtain ⟨w', p, x, hw', hst⟩ := hspec
  refine ⟨w', by rw [World.step, hw', Option.map_some], hst.pending ?_⟩
  exact (h.unused _ le_rfl).trans (dial_fd hadm hdial).2.1.symm

/-- **Independence.**  Whatever happens to the others, a connection does what it does by itself
with the answers that it hears. -/
theorem fate_of_heard {es' : List Event} (hO : ∀ fd ∈ O, 0 ≤ fd)
    (hes : Along conf Calm (init O) es) (hw : w ∈ run conf (init O) es) (hc : Pending w a c)
    (hes' : Along conf (Undisturbed a) w es') :
    ∃ w', run conf w es' = some w' ∧ Meets w' a c.func (c.follow conf (heard conf a w es')) := by
  obtain ⟨hinv, hhealthy⟩ := calm_run (inv_init hO) healthy_init hes w hw
  exact (follow_run hinv hhealthy hc (hhealthy.hopeful hinv hc) hes').2

/-- The connection of `connectTwo`. -/
theorem dial_connectTwo : Conn.dial (proxiedConf 3) ⟨[105], by decide⟩ 443 8
    (fun _ _ ↦ ["h", "i"]) (fun _ ↦ .pending 6) =
      some ⟨8, 6, .connecting (some (.s5Canwrite, ⟨[105], by decide⟩, 443)) ["h", "i"], []⟩ := rfl

/-- Nothing in `twoAtOnce` disturbs the second connection. -/
theorem undisturbed_twoAtOnce :
    Along (proxiedConf 3) (Undisturbed 1) (init {0, 1, 2}) twoAtOnce := by
  obtain ⟨hfirst, hsecond, hretry, -⟩ := admissible_twoAtOnce
  refine along_twoAtOnce ⟨hfirst _ rfl, id, id, id⟩ (fun w hw ↦ ⟨hsecond w hw, id, id, id⟩)
    (fun w hw ↦ ⟨hretry w hw, exhausts_retried, id, id⟩) (fun w hw ↦ ⟨trivial, id, id, ?_⟩)
    fun tag stream _ ↦ ⟨admissible_fine tag stream, exhausts_fine, id, id⟩
  have hother : ∀ w ∈ run (proxiedConf 3) (init {0, 1, 2})
      [connectH, connectTwo, retried 2 9, fine 1 []], ∀ p ∈ w.heap 1, p.fd ≠ 5 := by decide
  rintro ⟨p, hp, hfd⟩
  exact hother w hw p hp hfd

/-- The state in which the second connection is started. -/
theorem start_connectTwo : ∃ w, run (proxiedConf 3) (init {0, 1, 2}) (twoAtOnce.take 1) = some w ∧
    w.next = 1 ∧ Along (proxiedConf 3) Calm (init {0, 1, 2}) (twoAtOnce.take 1) ∧
      Along (proxiedConf 3) (Undisturbed 1) w (twoAtOnce.drop 1) := by
  have hnext : (run (proxiedConf 3) (init {0, 1, 2}) (twoAtOnce.take 1)).map next = some 1 := by
    decide
  obtain ⟨w, hw, hnext⟩ := Option.map_eq_some_iff.mp hnext
  have hall : Along (proxiedConf 3) (Undisturbed 1) (init {0, 1, 2})
      (twoAtOnce.take 1 ++ twoAtOnce.drop 1) := undisturbed_twoAtOnce
  obtain ⟨hes, hes'⟩ := hall.split hw
  exact ⟨w, hw, hnext, hes.mono fun _ _ h w hw ↦ (h w hw).calm, hes'⟩

theorem fate_of_heard_one : ∃ (w w' : World) (c : Conn),
    w ∈ run (proxiedConf 3) (init {0, 1, 2}) (twoAtOnce.take 2) ∧
      run (proxiedConf 3) w (twoAtOnce.drop 2) = some w' ∧ Meets w' 1 c.func
        (c.follow (proxiedConf 3) (heard (proxiedConf 3) 1 w (twoAtOnce.drop 2))) := by
  have hO : ∀ fd ∈ ({0, 1, 2} : Finset Fd), 0 ≤ fd := by decide
  obtain ⟨w₁, hw₁, hnext, hes₁, hes₁'⟩ := start_connectTwo
  obtain ⟨hinv, -⟩ := calm_run (inv_init hO) healthy_init hes₁ w₁ hw₁
  obtain ⟨w, hw, hc⟩ := step_of_dial hinv (by decide) (by decide) (hes₁'.1 w₁ rfl).admissible
    dial_connectTwo
  have hw : w ∈ run (proxiedConf 3) (init {0, 1, 2}) (twoAtOnce.take 2) := by
    show crashing (step (proxiedConf 3))
      (run (proxiedConf 3) (init {0, 1, 2}) (twoAtOnce.take 1)) connectTwo = some w
    rw [hw₁]
    exact hw
  have hall : Along (proxiedConf 3) (Undisturbed 1) (init {0, 1, 2})
      (twoAtOnce.take 2 ++ twoAtOnce.drop 2) := undisturbed_twoAtOnce
  obtain ⟨hes, hes'⟩ := hall.split hw
  obtain ⟨w', hrun, hmeets⟩ := fate_of_heard hO (hes.mono fun _ _ h w hw ↦ (h w hw).calm) hw
    (hnext ▸ hc) hes'
  exact ⟨w, w', _, hw, hrun, hmeets⟩

/-- **Progress.**  A connection that is started with so many addresses is woken at most three
times more; when it was woken as often as that, its function has been called. -/
theorem called_of_heard {func : Client} {getaddrinfo : CString → Nat → List SockAddr}
    {attempt : List SockAddr → Attempt} {es' : List Event} (hO : ∀ fd ∈ O, 0 ≤ fd)
    (hes : Along conf Calm (init O) es) (hw : w ∈ run conf (init O) es) (hport : 0 < port)
    (hlen : host.bytes.length ≤ 128)
    (hdial : Conn.dial conf host port func getaddrinfo attempt = some c)
    (hes' : Along conf (Undisturbed w.next) w
      (.connect (some host) port (some func) getaddrinfo attempt :: es')) :
    let run' := .connect (some host) port (some func) getaddrinfo attempt :: es'
    let most := (addresses conf host port getaddrinfo).length + 3
    (heard conf w.next w run').length ≤ most ∧
      ((heard conf w.next w run').length = most →
        ∃ w' source, run conf w run' = some w' ∧ (w.next, .called func source) ∈ w'.ended) := by
  obtain ⟨hinv, hhealthy⟩ := calm_run (inv_init hO) healthy_init hes w hw
  obtain ⟨hu, hes'⟩ := hes'
  obtain ⟨w₁, hw₁, hinv₁, hhealthy₁⟩ := Undisturbed.step hinv hhealthy hu rfl
  obtain ⟨w₂, hw₂, hc⟩ := step_of_dial hinv hport hlen (hu w rfl).admissible hdial
  obtain rfl := Option.some.inj (hw₁.symm.trans hw₂)
  obtain ⟨rfl, hmeasure⟩ := Conn.measure_dial hdial
  have hhope := (dial_fd (hu w rfl).admissible hdial).2.2
  rw [crashing_some, hw₁] at hes'
  obtain ⟨hle, w', hrun, hmeets⟩ := follow_run hinv₁ hhealthy₁ hc hhope hes'
  have hheard : heard conf w.next w
      (.connect (some host) port (some c.func) getaddrinfo attempt :: es') =
        heard conf w.next w₁ es' := by
    rw [heard, hw₁]
    rfl
  dsimp only
  rw [hheard]
  refine ⟨hle.trans hmeasure, fun heq ↦ ?_⟩
  rw [run, List.foldl_cons, crashing_some, hw₁]
  cases hfollow : c.follow conf (heard conf w.next w₁ es') with
  | waits c' =>
      have hwaits := Conn.follow_waits hhope hfollow
      have hpos := c'.measure_pos
      omega
  | ended source wire =>
      rw [hfollow] at hmeets
      exact ⟨w', source, hrun, hmeets.1⟩
  | lost =>
      rw [hfollow] at hmeets
      exact hmeets.elim

/-- The second connection is woken five times. -/
theorem called_of_heard_one :
    ∃ w ∈ run (proxiedConf 3) (init {0, 1, 2}) (twoAtOnce.take 1),
      (heard (proxiedConf 3) 1 w (twoAtOnce.drop 1)).length = 5 ∧
        ∃ w' source, run (proxiedConf 3) w (twoAtOnce.drop 1) = some w' ∧
          (1, .called 8 source) ∈ w'.ended := by
  have hO : ∀ fd ∈ ({0, 1, 2} : Finset Fd), 0 ≤ fd := by decide
  have hheard : ∀ w ∈ run (proxiedConf 3) (init {0, 1, 2}) (twoAtOnce.take 1),
      (heard (proxiedConf 3) 1 w (twoAtOnce.drop 1)).length = 5 := by decide
  obtain ⟨w, hw, hnext, hes, hes'⟩ := start_connectTwo
  have hes' : Along (proxiedConf 3) (Undisturbed w.next) w (connectTwo :: twoAtOnce.drop 2) := by
    rw [hnext]
    exact hes'
  have hcalled := (called_of_heard hO hes hw (by decide) (by decide) dial_connectTwo hes').2
  rw [hnext] at hcalled
  exact ⟨w, hw, hheard w hw, hcalled (hheard w hw)⟩

end World

end TelepathyFacebook
