import TelepathyFacebook.ProxySteps

/-!
# The invariant of the proxy code

* `Inv`: the table and the watches point to records that live, each record is the connection
  that its watch shows, and every record that was ever made lives or has ended once.
* `step_ready`, `proxyConnect_spec`, `proxyDisconnect_spec`: what the events of `Proxy` do,
  where the invariant holds.
* `Inv.step`: every event keeps it.
-/

namespace TelepathyFacebook

open Proxy Ledger Runs

namespace World

variable {conf : Conf} {w w' : World} {a b : Nat} {p q : PHB} {c d : Conn}
  {x : Watch (Handler × Nat)} {wire : List Message} {O : Finset Fd} {cs : List (Fd × Bool)}
  {fd : Fd} {o : Outcome}

/-! ## The invariant -/

/-- What holds in every state of every run. -/
structure Inv (w : World) : Prop where
  table : TableOk w.heap w.phbHash
  books : Balanced w.next (fun a ↦ (w.heap a).isSome) w.ended
  record : ∀ a p, w.heap a = some p →
    p.func.isSome ∧ p.inpa < w.loop.nextTag ∧
      ∀ y ∈ w.loop.watches, y.tag = p.inpa → y.closure.2 = a
  watch : ∀ y ∈ w.loop.watches, ∃ p c, w.heap y.closure.2 = some p ∧ Shows c y.closure.2 p y ∧
    c.wire = w.wire y.closure.2
  unused : ∀ a, w.next ≤ a → w.wire a = []
  nonneg : ∀ fd ∈ w.openFds, 0 ≤ fd

/-- The connection of a record. -/
def Pending (w : World) (a : Nat) (c : Conn) : Prop :=
  ∃ p x, w.heap a = some p ∧ x ∈ w.loop.watches ∧ Shows c a p x ∧ c.wire = w.wire a

theorem inv_init (h : ∀ fd ∈ O, 0 ≤ fd) : Inv (init O) where
  table := ⟨by simp [init], by simp [init], by simp [init], List.nodup_nil⟩
  books := balanced_nil.congr (by simp [init])
  record := by simp [init]
  watch := by simp [init, EventLoop.empty]
  unused _ _ := rfl
  nonneg := h

theorem Inv.lt_next (h : Inv w) (hp : w.heap a = some p) : a < w.next :=
  h.books.live_lt a (by simp [hp])

/-- A record has one watch. -/
theorem Inv.watch_unique (h : Inv w) {y : Watch (Handler × Nat)} (hx : x ∈ w.loop.watches)
    (hy : y ∈ w.loop.watches) (hxy : y.closure.2 = x.closure.2) : y = x := by
  obtain ⟨p, c, hp, hs, -⟩ := h.watch x hx
  obtain ⟨q, d, hq, hs', -⟩ := h.watch y hy
  rw [hxy, hp] at hq
  obtain rfl := Option.some.inj hq
  exact EventLoop.eq_of_tag_eq hy hx (hs'.inpa.symm.trans hs.inpa)

theorem Holds.heap_of_ne {y : Option (Watch (Handler × Nat))}
    (h : Holds w w' a p y wire O cs) (hb : b ≠ a) : w'.heap b = w.heap b := by
  rw [h.heap, Function.update_of_ne hb]

theorem Gone.heap_of_ne (h : Gone w w' a fd o wire O cs) (hb : b ≠ a) :
    w'.heap b = w.heap b := by
  rw [h.heap, Function.update_of_ne hb]

theorem Holds.mem_watches_of_ne {y : Option (Watch (Handler × Nat))}
    (h : Holds w w' a p y wire O cs) (hy : ∀ z, y = some z → z.closure.2 = a)
    (hx : x.closure.2 ≠ a) : x ∈ w'.loop.watches ↔ x ∈ w.loop.watches := by
  rw [h.watches, and_iff_left hx]
  exact or_iff_left fun hxy ↦ hx (hy x hxy)

/-- The other connections go on as they were. -/
theorem Holds.pending_iff {y : Option (Watch (Handler × Nat))}
    (h : Holds w w' a p y wire O cs) (hy : ∀ z, y = some z → z.closure.2 = a) (hb : b ≠ a) :
    Pending w' b d ↔ Pending w b d := by
  have hwire : w'.wire b = w.wire b := by rw [h.wire, Function.update_of_ne hb]
  simp only [Pending, h.heap_of_ne hb, hwire]
  refine exists_congr fun q ↦ exists_congr fun x ↦ and_congr_right fun _ ↦ ?_
  constructor
  · rintro ⟨hx, hs, hd⟩
    exact ⟨(h.mem_watches_of_ne hy (hs.owner.trans_ne hb)).mp hx, hs, hd⟩
  · rintro ⟨hx, hs, hd⟩
    exact ⟨(h.mem_watches_of_ne hy (hs.owner.trans_ne hb)).mpr hx, hs, hd⟩

theorem Gone.pending_iff (h : Gone w w' a fd o wire O cs) (hb : b ≠ a) :
    Pending w' b d ↔ Pending w b d := by
  have hwire : w'.wire b = w.wire b := by rw [h.wire, Function.update_of_ne hb]
  simp only [Pending, h.heap_of_ne hb, hwire]
  refine exists_congr fun q ↦ exists_congr fun x ↦ and_congr_right fun _ ↦ ?_
  constructor
  · rintro ⟨hx, hs, hd⟩
    exact ⟨((h.watches x).mp hx).1, hs, hd⟩
  · rintro ⟨hx, hs, hd⟩
    exact ⟨(h.watches x).mpr ⟨hx, hs.owner.trans_ne hb⟩, hs, hd⟩

/-- A connection that goes on keeps the invariant. -/
theorem Inv.of_holds (h : Inv w) (hh : Holds w w' a p (some x) c.wire O cs)
    (hs : Shows c a p x) (hfd : (w.heap a).map PHB.fd = some c.fd) (hO : ∀ fd ∈ O, 0 ≤ fd) :
    Inv w' := by
  obtain ⟨p₀, hp₀, -⟩ := Option.map_eq_some_iff.mp hfd
  have hx : x ∈ w'.loop.watches := (hh.watches x).mpr (.inr rfl)
  have howner : ∀ z, some x = some z → z.closure.2 = a := by
    rintro _ ⟨⟩
    exact hs.owner
  refine ⟨hh.tableOk h.table (hs.fd ▸ hfd), ?_, ?_, ?_, ?_, hh.openFds ▸ hO⟩
  · rw [hh.next, hh.ended]
    refine h.books.congr fun b ↦ ?_
    by_cases hb : b = a
    · rw [hb, hh.heap_self, hp₀]
      exact iff_of_true rfl rfl
    · rw [hh.heap_of_ne hb]
  · intro b q hq
    by_cases hb : b = a
    · rw [hb] at hq ⊢
      obtain rfl := Option.some.inj (hh.heap_self.symm.trans hq)
      refine ⟨Option.isSome_iff_exists.mpr ⟨_, hs.func⟩, ?_, fun y hy htag ↦ ?_⟩
      · rw [hs.inpa]
        exact (w'.loop.bound x hx).2
      · rw [EventLoop.eq_of_tag_eq hy hx (htag.trans hs.inpa), hs.owner]
    · rw [hh.heap_of_ne hb] at hq
      obtain ⟨hfunc, hlt, htags⟩ := h.record b q hq
      refine ⟨hfunc, hlt.trans_le hh.nextTag, fun y hy htag ↦ ?_⟩
      rcases (hh.watches y).mp hy with hy | hy
      · exact htags y hy.1 htag
      · rcases hh.fresh y hy with hy | hy
        · exact htags y hy htag
        · exact absurd (htag ▸ hy) (Nat.not_le_of_lt hlt)
  · intro y hy
    rcases (hh.watches y).mp hy with ⟨hy, hne⟩ | ⟨⟨⟩⟩
    · rw [hh.heap_of_ne hne, hh.wire, Function.update_of_ne hne]
      exact h.watch y hy
    · rw [hs.owner]
      exact ⟨p, c, hh.heap_self, hs, by rw [hh.wire, Function.update_self]⟩
  · intro b hb
    rw [hh.next] at hb
    rw [hh.wire, Function.update_of_ne ((h.lt_next hp₀).trans_le hb).ne']
    exact h.unused b hb

/-- A connection that ends keeps the invariant. -/
theorem Inv.of_gone (h : Inv w) (hg : Gone w w' a fd o wire O cs)
    (hfd : (w.heap a).map PHB.fd = some fd) (hO : ∀ fd ∈ O, 0 ≤ fd) : Inv w' := by
  obtain ⟨p₀, hp₀, -⟩ := Option.map_eq_some_iff.mp hfd
  refine ⟨?_, ?_, ?_, ?_, ?_, hg.openFds ▸ hO⟩
  · rw [hg.heap, hg.phbHash]
    exact h.table.drop hfd
  · rw [hg.next, hg.ended]
    refine (h.books.finish (a := a) (by simp [hp₀]) o).congr fun b ↦ ?_
    by_cases hb : b = a
    · rw [hb, hg.heap, Function.update_self]
      exact iff_of_false Bool.false_ne_true fun h ↦ h.1 rfl
    · rw [hg.heap_of_ne hb]
      exact (and_iff_right hb).symm
  · intro b q hq
    have hb : b ≠ a := by
      rintro rfl
      rw [hg.heap, Function.update_self] at hq
      cases hq
    rw [hg.heap_of_ne hb] at hq
    obtain ⟨hfunc, hlt, htags⟩ := h.record b q hq
    exact ⟨hfunc, hlt.trans_le hg.nextTag, fun y hy htag ↦ htags y ((hg.watches y).mp hy).1 htag⟩
  · intro y hy
    obtain ⟨hy, hne⟩ := (hg.watches y).mp hy
    rw [hg.heap_of_ne hne, hg.wire, Function.update_of_ne hne]
    exact h.watch y hy
  · intro b hb
    rw [hg.next] at hb
    rw [hg.wire, Function.update_of_ne ((h.lt_next hp₀).trans_le hb).ne']
    exact h.unused b hb

/-! ## Steps -/

variable {ans : Answers}

/-- The function of a watch. -/
theorem handler_spec (h : Inv w) (hx : x ∈ w.loop.watches) (hopen : x.fd ∈ w.openFds)
    (hfresh : Fresh w.openFds ans.attempt) (hp : w.heap x.closure.2 = some p)
    (hs : Shows c x.closure.2 p x) (hwire : c.wire = w.wire x.closure.2) :
    Effect w x.closure.2 c (c.ready conf ans)
      (w.handler conf x.closure.1 x.closure.2 x.fd ans) := by
  have hone : ∀ y ∈ w.loop.watches, y.closure.2 = x.closure.2 → y = x :=
    fun y hy ↦ h.watch_unique hx hy
  have hneg : -1 ∉ w.openFds := fun hmem ↦ absurd (h.nonneg _ hmem) (by decide)
  rw [hs.watchFd] at hopen ⊢
  cases hstage : c.stage with
  | connecting via gaiCur =>
      have hsh : ShowsStage p x (.connecting via gaiCur) := hstage ▸ hs.stage
      have hf : x.closure.1 = .proxyConnected := by cases via <;> exact hsh.1
      rw [hf]
      exact proxyConnected_spec h.table hp hx hone hs hwire hopen hneg hfresh hstage
  | handshake host port f =>
      have hsh : ShowsStage p x (.handshake host port f) := hstage ▸ hs.stage
      rw [hsh.1]
      exact canread_spec h.table hp hx hone hs hwire hopen hstage

/-- The watch whose function was called is gone already. -/
theorem Gone.bEventRemove (hg : Gone w w' a fd o wire O cs) (hx : x ∈ w.loop.watches)
    (howner : x.closure.2 = a) : Gone w (w'.bEventRemove x.tag) a fd o wire O cs :=
  { hg with
    watches := fun y ↦ by
      show y ∈ (w'.loop.bEventRemove x.tag).watches ↔ _
      rw [EventLoop.mem_bEventRemove, hg.watches]
      refine and_iff_left_of_imp fun hy htag ↦ hy.2 ?_
      rw [EventLoop.eq_of_tag_eq hy.1 hx htag, howner] }

theorem Holds.bEventRemove_old {y : Watch (Handler × Nat)}
    (hh : Holds w w' a p (some y) wire O cs) (hnew : w.loop.nextTag ≤ y.tag)
    (hx : x ∈ w.loop.watches) (howner : x.closure.2 = a) :
    Holds w (w'.bEventRemove x.tag) a p (some y) wire O cs :=
  { hh with
    watches := fun z ↦ by
      show z ∈ (w'.loop.bEventRemove x.tag).watches ↔ _
      rw [EventLoop.mem_bEventRemove, hh.watches]
      refine and_iff_left_of_imp ?_
      rintro (hz | ⟨⟨⟩⟩) htag
      · exact hz.2 (by rw [EventLoop.eq_of_tag_eq hz.1 hx htag, howner])
      · have hlt : x.tag < w.loop.nextTag := (w.loop.bound x hx).2
        omega }

theorem Effect.bEventRemove {v : Verdict} {r : Option World} (he : Effect w a c v r)
    (hx : x ∈ w.loop.watches) (howner : x.closure.2 = a) :
    Effect w a c v (r.map (·.bEventRemove x.tag)) := by
  cases v with
  | crash =>
      obtain rfl : r = none := he
      rfl
  | ends source wire cs =>
      obtain ⟨w', rfl, hg⟩ := he
      exact ⟨_, rfl, hg.bEventRemove hx howner⟩
  | waits c' cs =>
      obtain ⟨w', p, y, rfl, hh, hs, hnew⟩ := he
      exact ⟨_, p, y, rfl, hh.bEventRemove_old hnew hx howner, hs, hnew⟩
  | stuck c' cs =>
      obtain ⟨w', p, y, rfl, hh, hs, hnew⟩ := he
      exact ⟨_, p, y, rfl, hh.bEventRemove_old hnew hx howner, hs, hnew⟩

/-- **A descriptor is ready.**  The code does what the connection of the watch does by
itself. -/
theorem step_ready (h : Inv w) (hx : x ∈ w.loop.watches) (hopen : x.fd ∈ w.openFds)
    (hfresh : Fresh w.openFds ans.attempt) (hp : w.heap x.closure.2 = some p)
    (hs : Shows c x.closure.2 p x) (hwire : c.wire = w.wire x.closure.2) :
    Effect w x.closure.2 c (c.ready conf ans) (step conf w (.ready x.tag ans)) := by
  have hcall : w.loop.gaimIoInvoke (fun fd ↦ decide (fd ∈ w.openFds)) x.tag = .call x :=
    EventLoop.gaimIoInvoke_eq_call_iff.mpr ⟨hx, rfl, decide_eq_true hopen⟩
  rw [step, hcall]
  exact (handler_spec h hx hopen hfresh hp hs hwire).bEventRemove hx rfl

/-! ## The start of a connection -/

/-- A new record, with its watch and its entry. -/
structure Started (w w' : World) (host : CString) (port : Int) (c : Conn) (p : PHB)
    (x : Watch (Handler × Nat)) (cs : List (Fd × Bool)) : Prop where
  heap : w'.heap = Function.update w.heap w.next (some p)
  watches : ∀ y, y ∈ w'.loop.watches ↔ y ∈ w.loop.watches ∨ y = x
  nextTag : w.loop.nextTag ≤ w'.loop.nextTag
  tag : x.tag = w.loop.nextTag
  shows : Shows c w.next p x
  wire : w'.wire = w.wire
  openFds : w'.openFds = insert c.fd w.openFds
  closes : w'.closes = w.closes ++ cs
  next : w'.next = w.next + 1
  asked : w'.asked = Function.update w.asked w.next (some (host, port))
  ended : w'.ended = w.ended
  table : TableOk w'.heap w'.phbHash
  entry : (∀ e ∈ w.phbHash, e.hash ≠ c.fd) →
    w'.phbHash = w.phbHash ++ [⟨c.fd, w.next, w.next⟩]

/-- A record that was made in vain. -/
structure Refused (w w' : World) (host : CString) (port : Int) (cs : List (Fd × Bool)) :
    Prop where
  heap : w'.heap = w.heap
  loop : w'.loop = w.loop
  wire : w'.wire = w.wire
  openFds : w'.openFds = w.openFds
  closes : w'.closes = w.closes ++ cs
  next : w'.next = w.next + 1
  asked : w'.asked = Function.update w.asked w.next (some (host, port))
  ended : w'.ended = w.ended ++ [(w.next, .refused)]
  phbHash : w'.phbHash = w.phbHash

/-- The record that `proxy_connect` fills in. -/
def record (conf : Conf) (host : CString) (port : Int) (func : Client) : PHB :=
  match connectFunc conf with
  | none => ⟨some func, none, none, 0, 0, 0, [], []⟩
  | some f => ⟨some func, some f, some host, unsignedShort port, 0, 0, [], []⟩

/-- A record is made at an address that is not in use. -/
theorem TableOk.alloc {heap : Nat → Option PHB} {l : List Entry} (h : TableOk heap l)
    (ha : heap a = none) (p : PHB) : TableOk (Function.update heap a (some p)) l := by
  have hne : ∀ {b fd}, (heap b).map PHB.fd = some fd →
      (Function.update heap a (some p) b).map PHB.fd = some fd := by
    intro b fd hb
    rw [Function.update_of_ne, hb]
    rintro rfl
    rw [ha] at hb
    cases hb
  exact ⟨h.pos, fun e he ↦ hne (h.key e he), fun e he ↦ hne (h.value e he), h.nodup⟩

theorem TableOk.hashInsert (h : TableOk w.heap w.phbHash) (hp : w.heap a = some p)
    (hfd : p.fd = fd) (hpos : 0 < fd) :
    ∃ l, w.hashInsert fd a = some { w with phbHash := l } ∧ TableOk w.heap l ∧
      ((∀ e ∈ w.phbHash, e.hash ≠ fd) → l = w.phbHash ++ [⟨fd, a, a⟩]) := by
  have hmap : (w.heap a).map PHB.fd = some fd := by rw [hp, Option.map_some, hfd]
  rw [World.hashInsert, findEntry_eq fd h.key, Option.map_some]
  cases he : w.phbHash.find? (·.hash = fd) with
  | none =>
      have hno : ∀ e ∈ w.phbHash, e.hash ≠ fd := fun e hmem ↦ by
        simpa using List.find?_eq_none.mp he e hmem
      refine ⟨_, rfl, ⟨?_, ?_, ?_, ?_⟩, fun _ ↦ rfl⟩
      · exact List.forall_mem_append.mpr ⟨h.pos, List.forall_mem_singleton.mpr hpos⟩
      · exact List.forall_mem_append.mpr ⟨h.key, List.forall_mem_singleton.mpr hmap⟩
      · exact List.forall_mem_append.mpr ⟨h.value, List.forall_mem_singleton.mpr hmap⟩
      · rw [List.map_append, List.map_singleton, List.nodup_append]
        refine ⟨h.nodup, List.nodup_singleton _, ?_⟩
        rintro _ hhash _ hfd rfl
        obtain ⟨e, hmem, rfl⟩ := List.mem_map.mp hhash
        exact hno e hmem (List.mem_singleton.mp hfd)
  | some e =>
      have hmem : e ∈ w.phbHash := List.mem_of_find?_eq_some he
      have hhash : e.hash = fd := by simpa using List.find?_some he
      refine ⟨_, rfl, ⟨?_, ?_, ?_, ?_⟩, fun hno ↦ absurd hhash (hno e hmem)⟩
      · intro e' he'
        obtain ⟨y, hy, rfl⟩ := List.mem_map.mp he'
        split
        · exact h.pos e hmem
        · exact h.pos y hy
      · intro e' he'
        obtain ⟨y, hy, rfl⟩ := List.mem_map.mp he'
        split
        · exact h.key e hmem
        · exact h.key y hy
      · intro e' he'
        obtain ⟨y, hy, rfl⟩ := List.mem_map.mp he'
        split
        · exact hhash ▸ hmap
        · exact h.value y hy
      · have hmaps : (w.phbHash.map fun y ↦ if y = e then { e with value := a } else y).map
            Entry.hash = w.phbHash.map Entry.hash := by
          rw [List.map_map]
          refine List.map_congr_left fun y _ ↦ ?_
          show (if y = e then { e with value := a } else y).hash = y.hash
          split
          · next hye => rw [hye]
          · rfl
        rw [hmaps]
        exact h.nodup

theorem proxyConnectNone_eq (hp : w.heap a = some p) (hgai : p.gaiCur = [])
    {attempt : List SockAddr → Attempt} (hfresh : Fresh w.openFds attempt)
    (gai : List SockAddr) :
    w.proxyConnectNone a gai attempt =
      match (firstPending attempt gai).2 with
      | none =>
          (((w.noted (wereOpen (firstPending attempt gai).1)).set a
            { p with gai, gaiCur := [] }).phbFree a .refused).map (·, -1)
      | some (fd, left) =>
          some (((w.noted (wereOpen (firstPending attempt gai).1)).socket fd).bInputAdd a
            { p with gai, gaiCur := left, fd } fd .write .proxyConnected, fd) := by
  rw [proxyConnectNone, hp, Option.bind_some, if_pos hgai]
  dsimp only
  rw [tryAddresses_eq _ _ _ hfresh]
  cases htried : (firstPending attempt gai).2 with
  | none => rfl
  | some tried =>
      have hpos : 0 < tried.1 := (hfresh.of_firstPending htried).1
      exact if_neg (not_lt.mpr hpos.le)

variable {host : CString} {port : Int} {func : Client}
  {getaddrinfo : CString → Nat → List SockAddr} {attempt : List SockAddr → Attempt}

/-- A number is given to a new record. -/
def issue (w : World) (host : CString) (port : Int) : World :=
  { w with
    next := w.next + 1
    asked := Function.update w.asked w.next (some (host, port)) }

theorem proxyConnect_eq (w : World) (hport : 0 < port) (hlen : host.bytes.length ≤ 128) :
    w.proxyConnect conf (some host) port (some func) getaddrinfo attempt =
      (((w.issue host port).set w.next (record conf host port func)).proxyConnectNone w.next
        (addresses conf host port getaddrinfo) attempt).bind fun (w', fd) ↦
          if fd = -1 then some (w', fd) else (w'.hashInsert fd w.next).map (·, fd) := by
  have hargs : ¬ (port ≤ 0 ∨ 128 < host.bytes.length) := by omega
  rw [proxyConnect]
  dsimp only
  rw [if_neg hargs, record, addresses]
  cases connectFunc conf <;> rfl

theorem Inv.heap_next (h : Inv w) : w.heap w.next = none := by
  cases hp : w.heap w.next with
  | none => rfl
  | some p => exact absurd (h.lt_next hp) (lt_irrefl _)

/-- The record is freed before anything else knows of it. -/
theorem phbFree_new (h : Inv w) {v : World} {p : PHB}
    (hheap : v.heap = Function.update w.heap w.next (some p)) (hhash : v.phbHash = w.phbHash)
    (hfd : p.fd = 0) :
    v.phbFree w.next .refused =
      some { v with heap := w.heap, ended := v.ended ++ [(w.next, .refused)] } := by
  have htable : TableOk v.heap v.phbHash := by
    rw [hheap, hhash]
    exact h.table.alloc h.heap_next p
  have hself : v.heap w.next = some p := by rw [hheap, Function.update_self]
  have hdrop : Function.update v.heap w.next none = w.heap := by
    rw [hheap, Function.update_idem, ← h.heap_next, Function.update_eq_self]
  have hfilter : v.phbHash.filter (·.hash ≠ 0) = v.phbHash := by
    rw [hhash]
    exact List.filter_eq_self.mpr fun e he ↦ decide_eq_true (h.table.pos e he).ne'
  rw [phbFree_eq htable hself hfd, drop, gFree]
  dsimp only
  rw [hdrop, hfilter]

/-- The record gets its watch and its entry. -/
theorem started_of (h : Inv w) {v : World} {p : PHB} {cs : List (Fd × Bool)} {c : Conn}
    (hheap : ∃ q, v.heap = Function.update w.heap w.next (some q)) (hloop : v.loop = w.loop)
    (hwire : v.wire = w.wire) (hopen : v.openFds = w.openFds)
    (hcloses : v.closes = w.closes ++ cs) (hnext : v.next = w.next + 1)
    (hasked : v.asked = Function.update w.asked w.next (some (host, port)))
    (hended : v.ended = w.ended) (hhash : v.phbHash = w.phbHash) (hpos : 0 < c.fd)
    (hfd : p.fd = c.fd)
    (hs : Shows c w.next { p with inpa := w.loop.nextTag }
      ⟨w.loop.nextTag, c.fd, .write, (.proxyConnected, w.next)⟩) :
    ∃ w', ((v.socket c.fd).bInputAdd w.next p c.fd .write .proxyConnected).hashInsert c.fd
        w.next = some w' ∧
      Started w w' host port c { p with inpa := w.loop.nextTag }
        ⟨w.loop.nextTag, c.fd, .write, (.proxyConnected, w.next)⟩ cs := by
  obtain ⟨q, hheap⟩ := hheap
  have hadd : ((v.socket c.fd).bInputAdd w.next p c.fd .write .proxyConnected).heap =
      Function.update w.heap w.next (some { p with inpa := w.loop.nextTag }) := by
    show Function.update v.heap w.next (some { p with inpa := v.loop.nextTag }) = _
    rw [hheap, Function.update_idem, hloop]
  have htable : TableOk ((v.socket c.fd).bInputAdd w.next p c.fd .write .proxyConnected).heap
      v.phbHash := by
    rw [hadd, hhash]
    exact h.table.alloc h.heap_next _
  obtain ⟨l, hinsert, htable', hentry⟩ :=
    TableOk.hashInsert (w := (v.socket c.fd).bInputAdd w.next p c.fd .write .proxyConnected)
      (p := { p with inpa := w.loop.nextTag }) htable (by rw [hadd, Function.update_self])
      hfd hpos
  refine ⟨_, hinsert, hadd, fun y ↦ ?_, ?_, rfl, hs, hwire, congrArg (insert c.fd) hopen,
    hcloses, hnext, hasked, hended, htable', fun hno ↦ ?_⟩
  · show y ∈ (v.loop.bInputAdd c.fd .write (.proxyConnected, w.next)).watches ↔ _
    rw [EventLoop.mem_bInputAdd, hloop]
  · show w.loop.nextTag ≤ v.loop.nextTag + 1
    rw [hloop]
    exact Nat.le_succ _
  · rw [← hhash] at hno ⊢
    exact hentry hno

variable (conf func getaddrinfo) in
/-- **A call of `proxy_connect`** starts a connection or makes a record in vain; it calls no
function. -/
theorem proxyConnect_spec (h : Inv w) (hfresh : Fresh w.openFds attempt) (hport : 0 < port)
    (hlen : host.bytes.length ≤ 128) :
    let cs := wereOpen (firstPending attempt (addresses conf host port getaddrinfo)).1
    match Conn.dial conf host port func getaddrinfo attempt with
    | none => ∃ w', w.proxyConnect conf (some host) port (some func) getaddrinfo attempt =
        some (w', -1) ∧ Refused w w' host port cs
    | some c => ∃ w' p x, w.proxyConnect conf (some host) port (some func) getaddrinfo attempt =
        some (w', c.fd) ∧ Started w w' host port c p x cs := by
  have hrec : (record conf host port func).gaiCur = [] ∧ (record conf host port func).fd = 0 := by
    rw [record]
    cases connectFunc conf <;> exact ⟨rfl, rfl⟩
  have hnone := proxyConnectNone_eq (w := (w.issue host port).set w.next _)
    (Function.update_self ..) hrec.1 hfresh (addresses conf host port getaddrinfo)
  rw [proxyConnect_eq w hport hlen, Conn.dial, hnone]
  dsimp only
  generalize addresses conf host port getaddrinfo = gai
  cases htried : (firstPending attempt gai).2 with
  | none =>
      have hfree := phbFree_new h (v := (((w.issue host port).set w.next
        (record conf host port func)).noted (wereOpen (firstPending attempt gai).1)).set w.next
        { record conf host port func with gai, gaiCur := [] })
        (Function.update_idem ..) rfl hrec.2
      dsimp only
      rw [hfree]
      exact ⟨_, rfl, rfl, rfl, rfl, rfl, rfl, rfl, rfl, rfl, rfl⟩
  | some tried =>
      obtain ⟨fd, left⟩ := tried
      have hpos : 0 < fd := (hfresh.of_firstPending htried).1
      have hshows : Shows ⟨func, fd, .connecting (viaProxy conf host port) left, []⟩ w.next
          { record conf host port func with gai, gaiCur := left, fd, inpa := w.loop.nextTag }
          ⟨w.loop.nextTag, fd, .write, (.proxyConnected, w.next)⟩ := by
        rw [record, viaProxy]
        cases connectFunc conf with
        | none => exact ⟨rfl, rfl, hpos, rfl, rfl, rfl, rfl, rfl, rfl⟩
        | some f => exact ⟨rfl, rfl, hpos, rfl, rfl, rfl, rfl, rfl, rfl, rfl, rfl⟩
      obtain ⟨w', hw', hstarted⟩ := started_of h (c := ⟨func, fd, _, []⟩)
        (p := { record conf host port func with gai, gaiCur := left, fd })
        (v := ((w.issue host port).set w.next (record conf host port func)).noted
          (wereOpen (firstPending attempt gai).1)) ⟨_, rfl⟩ rfl rfl rfl rfl rfl rfl rfl rfl hpos
          rfl hshows
      refine ⟨w', _, _, ?_, hstarted⟩
      dsimp only
      rw [Option.bind_some]
      dsimp only
      rw [if_neg (ne_neg_one hpos)]
      exact congrArg (Option.map (·, fd)) hw'

theorem Started.heap_of_ne (h : Started w w' host port c p x cs) (hb : b ≠ w.next) :
    w'.heap b = w.heap b := by
  rw [h.heap, Function.update_of_ne hb]

theorem Started.pending (h : Started w w' host port c p x cs) (hw : w.wire w.next = c.wire) :
    Pending w' w.next c :=
  ⟨p, x, by rw [h.heap, Function.update_self], (h.watches x).mpr (.inr rfl), h.shows,
    by rw [h.wire, hw]⟩

theorem Started.pending_iff (h : Started w w' host port c p x cs) (hb : b ≠ w.next) :
    Pending w' b d ↔ Pending w b d := by
  simp only [Pending, h.heap_of_ne hb, h.wire]
  refine exists_congr fun q ↦ exists_congr fun y ↦ and_congr_right fun _ ↦ ?_
  constructor
  · rintro ⟨hy, hs, hd⟩
    rcases (h.watches y).mp hy with hy | rfl
    · exact ⟨hy, hs, hd⟩
    · exact absurd (hs.owner.symm.trans h.shows.owner) hb
  · rintro ⟨hy, hs, hd⟩
    exact ⟨(h.watches y).mpr (.inl hy), hs, hd⟩

/-- A new connection keeps the invariant. -/
theorem Inv.of_started (h : Inv w) (hst : Started w w' host port c p x cs)
    (hwire : c.wire = []) : Inv w' := by
  have hself : w'.heap w.next = some p := by rw [hst.heap, Function.update_self]
  have hnew : w.wire w.next = [] := h.unused _ le_rfl
  have hxmem : x ∈ w'.loop.watches := (hst.watches x).mpr (.inr rfl)
  refine ⟨hst.table, ?_, ?_, ?_, ?_, ?_⟩
  · rw [hst.next, hst.ended]
    refine h.books.issue.congr fun b ↦ ?_
    by_cases hb : b = w.next
    · rw [hb, hself]
      exact iff_of_true rfl (.inl rfl)
    · rw [hst.heap_of_ne hb]
      exact (or_iff_right hb).symm
  · intro b q hq
    by_cases hb : b = w.next
    · rw [hb] at hq ⊢
      obtain rfl := Option.some.inj (hself.symm.trans hq)
      refine ⟨Option.isSome_iff_exists.mpr ⟨_, hst.shows.func⟩, ?_, fun y hy htag ↦ ?_⟩
      · rw [hst.shows.inpa]
        exact (w'.loop.bound x hxmem).2
      · rw [EventLoop.eq_of_tag_eq hy hxmem (htag.trans hst.shows.inpa), hst.shows.owner]
    · rw [hst.heap_of_ne hb] at hq
      obtain ⟨hfunc, hlt, htags⟩ := h.record b q hq
      refine ⟨hfunc, hlt.trans_le hst.nextTag, fun y hy htag ↦ ?_⟩
      rcases (hst.watches y).mp hy with hy | rfl
      · exact htags y hy htag
      · rw [← htag, hst.tag] at hlt
        exact absurd hlt (lt_irrefl _)
  · intro y hy
    rcases (hst.watches y).mp hy with hy | rfl
    · obtain ⟨q, d, hq, hs, hd⟩ := h.watch y hy
      have hne : y.closure.2 ≠ w.next := (h.lt_next hq).ne
      exact ⟨q, d, by rw [hst.heap_of_ne hne, hq], hs, by rw [hst.wire, hd]⟩
    · rw [hst.shows.owner]
      exact ⟨p, c, hself, hst.shows, by rw [hst.wire, hnew, hwire]⟩
  · intro b hb
    rw [hst.next] at hb
    rw [hst.wire]
    exact h.unused b (Nat.le_of_succ_le hb)
  · intro fd hfd
    rw [hst.openFds] at hfd
    rcases Finset.mem_insert.mp hfd with rfl | hfd
    · exact hst.shows.pos.le
    · exact h.nonneg fd hfd

theorem Inv.of_refused (h : Inv w) (hr : Refused w w' host port cs) : Inv w' := by
  refine ⟨?_, ?_, ?_, ?_, ?_, hr.openFds ▸ h.nonneg⟩
  · rw [hr.heap, hr.phbHash]
    exact h.table
  · rw [hr.next, hr.ended, hr.heap]
    refine (h.books.issue.finish (.inl rfl) _).congr fun b ↦ ?_
    constructor
    · exact fun hb ↦ ⟨(h.books.live_lt b hb).ne, .inr hb⟩
    · rintro ⟨hne, hb | hb⟩
      · exact absurd hb hne
      · exact hb
  · rw [hr.heap, hr.loop]
    exact h.record
  · rw [hr.heap, hr.loop, hr.wire]
    exact h.watch
  · intro b hb
    rw [hr.next] at hb
    rw [hr.wire]
    exact h.unused b (Nat.le_of_succ_le hb)

/-! ## The end of a connection by its owner -/

theorem Inv.tag_eq_iff (h : Inv w) (hp : w.heap a = some p) {y : Watch (Handler × Nat)}
    (hy : y ∈ w.loop.watches) : y.tag = p.inpa ↔ y.closure.2 = a := by
  refine ⟨(h.record a p hp).2.2 y hy, ?_⟩
  rintro rfl
  obtain ⟨q, c, hq, hs, -⟩ := h.watch y hy
  obtain rfl := Option.some.inj (hp.symm.trans hq)
  exact hs.inpa.symm

/-- The record may have lost its watch. -/
theorem Inv.holds_quiet (h : Inv w) (hp : w.heap a = some p) :
    Holds w (if p.inpa = 0 then w else w.bEventRemove p.inpa) a p none (w.wire a) w.openFds
      [] := by
  have hwatches : ∀ y, y ∈ (if p.inpa = 0 then w else w.bEventRemove p.inpa).loop.watches ↔
      y ∈ w.loop.watches ∧ y.closure.2 ≠ a ∨ none = some y := by
    intro y
    rw [or_iff_left (Option.some_ne_none y).symm]
    split
    · next hinpa =>
        refine (and_iff_left_of_imp fun hy howner ↦ ?_).symm
        have htag : y.tag = 0 := hinpa ▸ (h.tag_eq_iff hp hy).mpr howner
        exact (w.loop.bound y hy).1.ne' htag
    · show y ∈ (w.loop.bEventRemove p.inpa).watches ↔ _
      rw [EventLoop.mem_bEventRemove]
      exact and_congr_right fun hy ↦ not_congr (h.tag_eq_iff hp hy)
  have hheap : w.heap = Function.update w.heap a (some p) :=
    (Function.update_eq_self_iff.mpr hp.symm).symm
  have hwire : w.wire = Function.update w.wire a (w.wire a) := (Function.update_eq_self ..).symm
  by_cases hinpa : p.inpa = 0
  · rw [if_pos hinpa] at hwatches ⊢
    exact ⟨hheap, hwatches, le_rfl, by rintro _ ⟨⟩, hwire, rfl, (List.append_nil _).symm, rfl, rfl,
      rfl, rfl⟩
  · rw [if_neg hinpa] at hwatches ⊢
    exact ⟨hheap, hwatches, le_rfl, by rintro _ ⟨⟩, hwire, rfl, (List.append_nil _).symm, rfl, rfl,
      rfl, rfl⟩

/-- **A call of `proxy_disconnect`** frees the record that the table has for the descriptor,
or closes a descriptor that the table does not know. -/
theorem proxyDisconnect_spec (h : Inv w) (fd : Fd) :
    match w.phbHash.find? (·.hash = fd) with
    | none => w.proxyDisconnect fd = some (w.closesocket fd)
    | some e => ∃ w', w.proxyDisconnect fd = some w' ∧
        Gone w w' e.value fd .disconnected (w.wire e.value) (w.openFds.erase fd)
          [(fd, decide (fd ∈ w.openFds))] := by
  rw [proxyDisconnect, h.table.hashLookup]
  cases he : w.phbHash.find? (·.hash = fd) with
  | none => rfl
  | some e =>
      have hmem : e ∈ w.phbHash := List.mem_of_find?_eq_some he
      have hhash : e.hash = fd := by simpa using List.find?_some he
      have hvalue : (w.heap e.value).map PHB.fd = some fd := hhash ▸ h.table.value e hmem
      obtain ⟨p, hp, hfd⟩ := Option.map_eq_some_iff.mp hvalue
      have hpos : 0 < fd := hhash ▸ h.table.pos e hmem
      have hquiet := h.holds_quiet hp
      rw [Option.map_some, Option.bind_some]
      dsimp only
      rw [hp, Option.bind_some]
      have hset : ∀ q : PHB, q.fd = fd → q.func = none →
          ∃ w', ((if p.inpa = 0 then w else w.bEventRemove p.inpa).set e.value q).phbFail e.value =
            some w' ∧ Gone w w' e.value fd .disconnected (w.wire e.value) (w.openFds.erase fd)
              [(fd, decide (fd ∈ w.openFds))] := by
        intro q hq hfunc
        have hs := hquiet.set q
        have htable := hs.tableOk h.table (hvalue.trans (congrArg some hq.symm))
        refine ⟨_, phbFail_eq htable hs.heap_self hq hpos, ?_⟩
        rw [hfunc]
        exact (hs.closesocket fd).drop fd .disconnected
      split
      · next hinpa =>
          have := hset { p with func := none } hfd rfl
          rwa [if_pos hinpa] at this
      · next hinpa =>
          have := hset { p with inpa := 0, func := none } hfd rfl
          rwa [if_neg hinpa] at this

/-! ## Every event -/

/-- What is expected of the kernel: a descriptor that it gives out, here or to another part of the
program, is not open, and it is positive, as 0 is the standard input. -/
def Admissible (w : World) : Event → Prop
  | .connect _ _ _ _ attempt => Fresh w.openFds attempt
  | .ready _ ans => Fresh w.openFds ans.attempt
  | .opened fd => 0 < fd ∧ fd ∉ w.openFds
  | .disconnect _ | .closed _ => True

/-- `proxy_connected` finds no address in the record whose connection has failed. -/
def NullAddress (w : World) : Event → Prop
  | .ready tag ans => ∃ x ∈ w.loop.watches, x.tag = tag ∧ x.fd ∈ w.openFds ∧ ¬ ans.connected ∧
      ∃ c via, Pending w x.closure.2 c ∧ c.stage = .connecting via []
  | _ => False

theorem ready_eq_crash_iff :
    c.ready conf ans = .crash ↔ ¬ ans.connected ∧ ∃ via, c.stage = .connecting via [] := by
  rw [Conn.ready]
  cases c.stage with
  | handshake host port f => exact iff_of_false Conn.react_ne_crash (by rintro ⟨-, via, ⟨⟩⟩)
  | connecting via l =>
      dsimp only
      split
      · next hconn =>
          refine iff_of_false ?_ fun h ↦ h.1 hconn
          cases via with
          | none => exact fun h ↦ Verdict.noConfusion h
          | some via =>
              rw [Conn.resolved]
              split
              · exact Conn.react_ne_crash
              · exact fun h ↦ Verdict.noConfusion h
      · next hconn =>
          rcases l with _ | ⟨addr, _ | ⟨next, rest⟩⟩
          · exact iff_of_true rfl ⟨hconn, via, rfl⟩
          · exact iff_of_false (fun h ↦ Verdict.noConfusion h) (by rintro ⟨-, via, ⟨⟩⟩)
          · refine iff_of_false ?_ (by rintro ⟨-, via, ⟨⟩⟩)
            rw [Conn.retry]
            split <;> exact fun h ↦ Verdict.noConfusion h

/-- What an event can do. -/
inductive StepEffect (conf : Conf) (w : World) : Event → Option World → Prop where
  /-- The arguments of `proxy_connect` are refused. -/
  | rejected {host : Option CString} {port : Int} {func : Option Client}
      {getaddrinfo : CString → Nat → List SockAddr} {attempt : List SockAddr → Attempt} :
      StepEffect conf w (.connect host port func getaddrinfo attempt) (some w)
  | started {host : CString} {port : Int} {func : Client}
      {getaddrinfo : CString → Nat → List SockAddr} {attempt : List SockAddr → Attempt}
      {c : Conn} {w' : World} {p : PHB} {x : Watch (Handler × Nat)} {cs : List (Fd × Bool)}
      (hport : 0 < port) (hlen : host.bytes.length ≤ 128)
      (hdial : Conn.dial conf host port func getaddrinfo attempt = some c)
      (hfresh : c.fd ∉ w.openFds) (hst : Started w w' host port c p x cs) (hcs : ∀ r ∈ cs, r.2) :
      StepEffect conf w (.connect (some host) port (some func) getaddrinfo attempt) (some w')
  | refused {host : CString} {port : Int} {func : Client}
      {getaddrinfo : CString → Nat → List SockAddr} {attempt : List SockAddr → Attempt}
      {w' : World} {cs : List (Fd × Bool)} (hr : Refused w w' host port cs)
      (hcs : ∀ r ∈ cs, r.2) :
      StepEffect conf w (.connect (some host) port (some func) getaddrinfo attempt) (some w')
  /-- `proxy_disconnect` finds the record. -/
  | disconnected {fd : Fd} {e : Entry} {w' : World} (hmem : e ∈ w.phbHash) (hhash : e.hash = fd)
      (hg : Gone w w' e.value fd .disconnected (w.wire e.value) (w.openFds.erase fd)
        [(fd, decide (fd ∈ w.openFds))]) :
      StepEffect conf w (.disconnect fd) (some w')
  /-- `proxy_disconnect` finds no record. -/
  | unknown {fd : Fd} (hno : ∀ e ∈ w.phbHash, e.hash ≠ fd) :
      StepEffect conf w (.disconnect fd) (some (w.closesocket fd))
  /-- No function is called. -/
  | asleep {tag : Nat} {ans : Answers}
      (hno : ∀ x ∈ w.loop.watches, x.tag = tag → x.fd ∉ w.openFds) :
      StepEffect conf w (.ready tag ans) (some w)
  /-- The watch of a closed descriptor is removed. -/
  | dropped {x : Watch (Handler × Nat)} {ans : Answers} (hx : x ∈ w.loop.watches)
      (hclosed : x.fd ∉ w.openFds) :
      StepEffect conf w (.ready x.tag ans) (some (w.bEventRemove x.tag))
  /-- The function of a watch is called. -/
  | woken {x : Watch (Handler × Nat)} {ans : Answers} {p : PHB} {c : Conn} {r : Option World}
      (hx : x ∈ w.loop.watches) (hopen : x.fd ∈ w.openFds) (hp : w.heap x.closure.2 = some p)
      (hs : Shows c x.closure.2 p x) (hwire : c.wire = w.wire x.closure.2)
      (he : Effect w x.closure.2 c (c.ready conf ans) r) :
      StepEffect conf w (.ready x.tag ans) r
  | opened {fd : Fd} (hpos : 0 < fd) (hfresh : fd ∉ w.openFds) :
      StepEffect conf w (.opened fd) (some (w.socket fd))
  | closed {fd : Fd} : StepEffect conf w (.closed fd) (some (w.closesocket fd))

theorem dial_fd {c : Conn} (hfresh : Fresh w.openFds attempt)
    (h : Conn.dial conf host port func getaddrinfo attempt = some c) :
    c.fd ∉ w.openFds ∧ c.wire = [] ∧ c.Hopeful := by
  obtain ⟨⟨fd, left⟩, htried, rfl⟩ := Option.map_eq_some_iff.mp h
  refine ⟨(hfresh.of_firstPending htried).2, rfl, fun via hnil ↦ ?_⟩
  exact (Conn.suffix_of_firstPending htried).2 (Stage.connecting.inj hnil).2

/-- **Inversion of a step.** -/
theorem step_cases (h : Inv w) {e : Event} (hadm : Admissible w e) :
    StepEffect conf w e (step conf w e) := by
  cases e with
  | opened fd => exact .opened hadm.1 hadm.2
  | closed fd => exact .closed
  | disconnect fd =>
      have hspec := proxyDisconnect_spec h fd
      rw [step]
      split at hspec
      · next hno =>
          rw [hspec]
          exact .unknown fun e he ↦ by simpa using List.find?_eq_none.mp hno e he
      · next e he =>
          obtain ⟨w', hw', hg⟩ := hspec
          rw [hw']
          exact .disconnected (List.mem_of_find?_eq_some he) (by simpa using List.find?_some he) hg
  | connect host port func getaddrinfo attempt =>
      have hrejected : World.proxyConnect conf w host port func getaddrinfo attempt =
          some (w, -1) → StepEffect conf w (.connect host port func getaddrinfo attempt)
            (step conf w (.connect host port func getaddrinfo attempt)) := by
        intro hw
        rw [step, hw]
        exact .rejected
      match host, func with
      | none, _ => exact hrejected rfl
      | some _, none => exact hrejected rfl
      | some host, some func =>
          by_cases hargs : port ≤ 0 ∨ 128 < host.bytes.length
          · exact hrejected (if_pos hargs)
          · obtain ⟨hport, hlen⟩ := not_or.mp hargs
            have hspec := proxyConnect_spec conf func getaddrinfo h hadm (not_le.mp hport)
              (not_lt.mp hlen)
            rw [step]
            split at hspec
            · obtain ⟨w', hw', hr⟩ := hspec
              rw [hw']
              exact .refused hr all_wereOpen
            · next c hdial =>
                obtain ⟨w', p, x, hw', hst⟩ := hspec
                rw [hw']
                exact .started (not_le.mp hport) (not_lt.mp hlen) hdial (dial_fd hadm hdial).1 hst
                  all_wereOpen
  | ready tag ans =>
      cases hcall : w.loop.gaimIoInvoke (fun fd ↦ decide (fd ∈ w.openFds)) tag with
      | none =>
          rw [step, hcall]
          refine .asleep fun x hx htag hopen ↦ ?_
          rw [EventLoop.gaimIoInvoke_eq_call_iff.mpr ⟨hx, htag, decide_eq_true hopen⟩] at hcall
          cases hcall
      | dropped =>
          obtain ⟨x, hx, rfl, hclosed⟩ := EventLoop.exists_of_gaimIoInvoke_eq_dropped hcall
          rw [step, hcall]
          exact .dropped hx (of_decide_eq_false hclosed)
      | call x =>
          obtain ⟨hx, rfl, hopen⟩ := EventLoop.gaimIoInvoke_eq_call_iff.mp hcall
          have hopen : x.fd ∈ w.openFds := of_decide_eq_true hopen
          obtain ⟨p, c, hp, hs, hwire⟩ := h.watch x hx
          exact .woken hx hopen hp hs hwire (step_ready h hx hopen hadm hp hs hwire)

/-- **Every event keeps the invariant.** -/
theorem Inv.step (h : Inv w) {e : Event} (hadm : Admissible w e)
    (hw : World.step conf w e = some w') : Inv w' := by
  have hcases : StepEffect conf w e (World.step conf w e) := step_cases h hadm
  rw [hw] at hcases
  have hclose : ∀ fd, Inv (w.closesocket fd) := fun fd ↦ ⟨h.table, h.books, h.record, h.watch,
    h.unused, fun fd' hfd ↦ h.nonneg fd' (Finset.mem_of_mem_erase hfd)⟩
  have herase : ∀ fd, ∀ fd' ∈ w.openFds.erase fd, 0 ≤ fd' :=
    fun fd fd' hfd ↦ h.nonneg fd' (Finset.mem_of_mem_erase hfd)
  cases hcases with
  | rejected => exact h
  | started _ _ hdial _ hst => exact h.of_started hst (dial_fd hadm hdial).2.1
  | refused hr => exact h.of_refused hr
  | disconnected hmem hhash hg =>
      exact h.of_gone hg (hhash ▸ h.table.value _ hmem) (herase _)
  | unknown hno => exact hclose _
  | asleep hno => exact h
  | dropped hx hclosed =>
      refine ⟨h.table, h.books, fun a p hp ↦ ?_, fun y hy ↦ ?_, h.unused, h.nonneg⟩
      · obtain ⟨hfunc, hlt, htags⟩ := h.record a p hp
        exact ⟨hfunc, hlt, fun y hy ↦ htags y (EventLoop.mem_bEventRemove.mp hy).1⟩
      · exact h.watch y (EventLoop.mem_bEventRemove.mp hy).1
  | @woken x ans p c _ hx hopen hp hs hwire he =>
      have hfd : (w.heap x.closure.2).map PHB.fd = some c.fd := by
        rw [hp, Option.map_some, hs.fd]
      revert he
      cases hv : c.ready conf ans with
      | crash => exact fun he : some w' = none ↦ absurd he (Option.some_ne_none w')
      | ends source wire cs =>
          rintro ⟨_, ⟨⟩, hg⟩
          refine h.of_gone hg hfd ?_
          split
          · exact herase _
          · exact h.nonneg
      | waits c' cs =>
          rintro ⟨_, q, y, ⟨⟩, hh, hs', -⟩
          exact h.of_holds hh hs' (hfd.trans (congrArg some (Conn.ready_waits_same hv).1.symm))
            h.nonneg
      | stuck c' cs =>
          rintro ⟨_, q, y, ⟨⟩, hh, hs', -⟩
          exact h.of_holds hh hs' (hfd.trans (congrArg some (Conn.ready_stuck_same hv).1.symm))
            (herase _)
  | opened hpos hfresh =>
      refine ⟨h.table, h.books, h.record, h.watch, h.unused, fun fd' hfd ↦ ?_⟩
      rcases Finset.mem_insert.mp hfd with rfl | hfd
      · exact hpos.le
      · exact h.nonneg fd' hfd
  | closed => exact hclose _

end World

end TelepathyFacebook
