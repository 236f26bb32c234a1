import TelepathyFacebook.ProxyConn

/-!
# What a function of the proxy code does

One spec lemma for each function of `Proxy`, and from them `handler_spec`: when the
descriptor of a watch is ready, the code does to the record of that watch what `Conn.ready`
says of a connection by itself, and leaves the other records, their entries in the table and
their watches alone.
-/

namespace TelepathyFacebook

open Proxy Ledger

namespace World

theorem ne_neg_one {fd : Int} (h : 0 < fd) : fd ≠ -1 := by omega

variable {conf : Conf} {w w₁ : World} {a b : Nat} {p p₁ p₂ : PHB} {c : Conn}
  {wire ms : List Message} {O : Finset Fd} {cs : List (Fd × Bool)}

/-! ## The table -/

/-- The entries point to records that live, and stand under their descriptors. -/
structure TableOk (heap : Nat → Option PHB) (phbHash : List Entry) : Prop where
  pos : ∀ e ∈ phbHash, 0 < e.hash
  key : ∀ e ∈ phbHash, (heap e.key).map PHB.fd = some e.hash
  value : ∀ e ∈ phbHash, (heap e.value).map PHB.fd = some e.hash
  nodup : (phbHash.map Entry.hash).Nodup

theorem map_fd_update {heap : Nat → Option PHB} (hp : (heap a).map PHB.fd = some p.fd) (b : Nat) :
    (Function.update heap a (some p) b).map PHB.fd = (heap b).map PHB.fd := by
  by_cases hb : b = a
  · rw [hb, Function.update_self, hp]
    rfl
  · rw [Function.update_of_ne hb]

/-- A record may change in everything but its descriptor. -/
theorem TableOk.update {heap : Nat → Option PHB} {l : List Entry} (h : TableOk heap l)
    (hp : (heap a).map PHB.fd = some p.fd) : TableOk (Function.update heap a (some p)) l where
  pos := h.pos
  key e he := (map_fd_update hp _).trans (h.key e he)
  value e he := (map_fd_update hp _).trans (h.value e he)
  nodup := h.nodup

/-- A record may go together with the entry of its descriptor. -/
theorem TableOk.drop {heap : Nat → Option PHB} {l : List Entry} {fd : Fd} (h : TableOk heap l)
    (hp : (heap a).map PHB.fd = some fd) :
    TableOk (Function.update heap a none) (l.filter (·.hash ≠ fd)) := by
  have hkeep : ∀ e ∈ l.filter (·.hash ≠ fd), ∀ b, (heap b).map PHB.fd = some e.hash →
      (Function.update heap a none b).map PHB.fd = some e.hash := by
    intro e he b hb
    have hne : b ≠ a := by
      rintro rfl
      exact (of_decide_eq_true (List.mem_filter.mp he).2) (Option.some.inj (hb.symm.trans hp))
    rw [Function.update_of_ne hne, hb]
  exact
    { pos := fun e he ↦ h.pos e (List.mem_of_mem_filter he)
      key := fun e he ↦ hkeep e he _ (h.key e (List.mem_of_mem_filter he))
      value := fun e he ↦ hkeep e he _ (h.value e (List.mem_of_mem_filter he))
      nodup := h.nodup.sublist (List.filter_sublist.map _) }

theorem findEntry_eq {heap : Nat → Option PHB} {l : List Entry} (fd : Fd)
    (h : ∀ e ∈ l, (heap e.key).map PHB.fd = some e.hash) :
    findEntry heap fd l = some (l.find? (·.hash = fd)) := by
  induction l with
  | nil => rfl
  | cons e es ih =>
      rw [List.forall_mem_cons] at h
      obtain ⟨p, hp, hfd⟩ := Option.map_eq_some_iff.mp h.1
      rw [findEntry, ih h.2]
      split
      · next he => rw [hp, Option.bind_some, if_pos (hfd.trans he),
          List.find?_cons_of_pos (by simpa using he)]
      · next he => rw [List.find?_cons_of_neg (by simpa using he)]

theorem TableOk.hashLookup (h : TableOk w.heap w.phbHash) (fd : Fd) :
    w.hashLookup fd = some ((w.phbHash.find? (·.hash = fd)).map Entry.value) := by
  rw [World.hashLookup, findEntry_eq fd h.key]
  rfl

theorem TableOk.hashRemove (h : TableOk w.heap w.phbHash) (fd : Fd) :
    w.hashRemove fd = some { w with phbHash := w.phbHash.filter (·.hash ≠ fd) } := by
  rw [World.hashRemove, findEntry_eq fd h.key, Option.map_some]
  cases he : w.phbHash.find? (·.hash = fd) with
  | none =>
      have hall : w.phbHash.filter (·.hash ≠ fd) = w.phbHash := by
        refine List.filter_eq_self.mpr fun e hmem ↦ ?_
        simpa using List.find?_eq_none.mp he e hmem
      rw [hall]
  | some e =>
      have hmem : e ∈ w.phbHash := List.mem_of_find?_eq_some he
      have hfd : e.hash = fd := by simpa using List.find?_some he
      have herase : w.phbHash.erase e = w.phbHash.filter (·.hash ≠ fd) := by
        rw [(List.Nodup.of_map _ h.nodup).erase_eq_filter]
        refine List.filter_congr fun x hx ↦ ?_
        have hiff : x = e ↔ x.hash = fd := by
          constructor
          · rintro rfl
            exact hfd
          · exact fun hxe ↦ List.inj_on_of_nodup_map h.nodup hx hmem (hxe.trans hfd.symm)
        rw [Bool.eq_iff_iff]
        simp [hiff]
      exact congrArg (fun l ↦ some { w with phbHash := l }) herase

/-! ## The end of a record -/

/-- The record and the entry of its descriptor are gone. -/
def drop (w : World) (phb : Nat) (fd : Fd) (o : Outcome) : World :=
  { w with phbHash := w.phbHash.filter (·.hash ≠ fd) }.gFree phb o

theorem phbFree_eq (h : TableOk w.heap w.phbHash) (hp : w.heap a = some p) {fd : Fd}
    (hfd : p.fd = fd) (o : Outcome) : w.phbFree a o = some (w.drop a fd o) := by
  rw [phbFree, hp, Option.bind_some, h.hashRemove, hfd]
  rfl

theorem phbConnected_eq (h : TableOk w.heap w.phbHash) (hp : w.heap a = some p) {fd : Fd}
    (hfd : p.fd = fd) {f : Client} (hf : p.func = some f) (source : Fd) :
    w.phbConnected a source = some (w.drop a fd (.called f source)) := by
  rw [phbConnected, hp, Option.bind_some, hf, Option.bind_some, phbFree_eq h hp hfd]

/-- The outcome of a failure. -/
def failure : Option Client → Outcome
  | some f => .called f (-1)
  | none => .disconnected

theorem phbFail_eq (h : TableOk w.heap w.phbHash) (hp : w.heap a = some p) {fd : Fd}
    (hfd : p.fd = fd) (hpos : 0 < fd) :
    w.phbFail a = some ((w.closesocket fd).drop a fd (failure p.func)) := by
  rw [phbFail, hp, Option.bind_some, h.hashRemove, Option.map_some, hfd, if_pos hpos]
  cases p.func <;> rfl

/-! ## What changes -/

/-- In `w₁` the record `a` is `p`, its messages are `wire`, and `x` is its watch, if it has
one.  Of what does not belong to the record, no more has changed than the open
descriptors. -/
structure Holds (w w₁ : World) (a : Nat) (p : PHB) (x : Option (Watch (Handler × Nat)))
    (wire : List Message) (O : Finset Fd) (cs : List (Fd × Bool)) : Prop where
  heap : w₁.heap = Function.update w.heap a (some p)
  watches : ∀ y, y ∈ w₁.loop.watches ↔ y ∈ w.loop.watches ∧ y.closure.2 ≠ a ∨ x = some y
  nextTag : w.loop.nextTag ≤ w₁.loop.nextTag
  fresh : ∀ y, x = some y → y ∈ w.loop.watches ∨ w.loop.nextTag ≤ y.tag
  wire : w₁.wire = Function.update w.wire a wire
  openFds : w₁.openFds = O
  closes : w₁.closes = w.closes ++ cs
  next : w₁.next = w.next
  asked : w₁.asked = w.asked
  phbHash : w₁.phbHash = w.phbHash
  ended : w₁.ended = w.ended

/-- In `w₁` the record `a` is gone, with its watches and the entry of its descriptor. -/
structure Gone (w w₁ : World) (a : Nat) (fd : Fd) (o : Outcome) (wire : List Message)
    (O : Finset Fd) (cs : List (Fd × Bool)) : Prop where
  heap : w₁.heap = Function.update w.heap a none
  watches : ∀ y, y ∈ w₁.loop.watches ↔ y ∈ w.loop.watches ∧ y.closure.2 ≠ a
  nextTag : w.loop.nextTag ≤ w₁.loop.nextTag
  wire : w₁.wire = Function.update w.wire a wire
  openFds : w₁.openFds = O
  closes : w₁.closes = w.closes ++ cs
  next : w₁.next = w.next
  asked : w₁.asked = w.asked
  phbHash : w₁.phbHash = w.phbHash.filter (·.hash ≠ fd)
  ended : w₁.ended = w.ended ++ [(a, o)]

namespace Holds

/-- Nothing has changed yet. -/
theorem refl {x : Watch (Handler × Nat)} (hp : w.heap a = some p)
    (hx : ∀ y ∈ w.loop.watches, y.closure.2 = a → y = x) (hmem : x ∈ w.loop.watches) :
    Holds w w a p (some x) (w.wire a) w.openFds [] where
  heap := (Function.update_eq_self_iff.mpr hp.symm).symm
  watches y := by
    constructor
    · intro hy
      by_cases hya : y.closure.2 = a
      · exact .inr (congrArg some (hx y hy hya).symm)
      · exact .inl ⟨hy, hya⟩
    · rintro (⟨hy, -⟩ | ⟨⟨⟩⟩)
      · exact hy
      · exact hmem
  nextTag := le_rfl
  fresh := by
    rintro _ ⟨⟩
    exact .inl hmem
  wire := (Function.update_eq_self ..).symm
  openFds := rfl
  closes := (List.append_nil _).symm
  next := rfl
  asked := rfl
  phbHash := rfl
  ended := rfl

/-- Taking the watch of the record away. -/
theorem bEventRemove {x : Watch (Handler × Nat)} (h : Holds w w₁ a p (some x) wire O cs)
    (hx : x.closure.2 = a) : Holds w (w₁.bEventRemove x.tag) a p none wire O cs :=
  { h with
    watches := fun y ↦ by
      show y ∈ (w₁.loop.bEventRemove x.tag).watches ↔ _
      rw [EventLoop.mem_bEventRemove]
      have hxmem : x ∈ w₁.loop.watches := (h.watches x).mpr (.inr rfl)
      constructor
      · rintro ⟨hy, hne⟩
        rcases (h.watches y).mp hy with hy | ⟨⟨⟩⟩
        · exact .inl hy
        · exact absurd rfl hne
      · rintro (hy | hy)
        · have hymem : y ∈ w₁.loop.watches := (h.watches y).mpr (.inl hy)
          refine ⟨hymem, fun htag ↦ hy.2 ?_⟩
          rw [EventLoop.eq_of_tag_eq hymem hxmem htag, hx]
        · cases hy
    fresh := by rintro _ ⟨⟩ }

variable {x : Option (Watch (Handler × Nat))}

theorem heap_self (h : Holds w w₁ a p x wire O cs) : w₁.heap a = some p := by
  rw [h.heap, Function.update_self]

theorem tableOk (h : Holds w w₁ a p x wire O cs) (ht : TableOk w.heap w.phbHash)
    (hp : (w.heap a).map PHB.fd = some p.fd) : TableOk w₁.heap w₁.phbHash := by
  rw [h.heap, h.phbHash]
  exact ht.update hp

theorem set (h : Holds w w₁ a p x wire O cs) (p₂ : PHB) :
    Holds w (w₁.set a p₂) a p₂ x wire O cs :=
  { h with
    heap := by
      show Function.update w₁.heap a (some p₂) = _
      rw [h.heap, Function.update_idem] }

theorem log (h : Holds w w₁ a p x wire O cs) (ms : List Message) :
    Holds w (w₁.log a ms) a p x (wire ++ ms) O cs :=
  { h with
    wire := by
      show Function.update w₁.wire a (w₁.wire a ++ ms) = _
      rw [h.wire, Function.update_idem, Function.update_self] }

theorem closesocket (h : Holds w w₁ a p x wire O cs) (fd : Fd) :
    Holds w (w₁.closesocket fd) a p x wire (O.erase fd) (cs ++ [(fd, decide (fd ∈ O))]) :=
  { h with
    openFds := congrArg (·.erase fd) h.openFds
    closes := by
      show w₁.closes ++ [(fd, decide (fd ∈ w₁.openFds))] = _
      rw [h.closes, h.openFds, List.append_assoc] }

/-- Giving the record a new watch. -/
theorem bInputAdd (h : Holds w w₁ a p none wire O cs) (p₂ : PHB) (fd : Fd)
    (cond : BInputCondition) (f : Handler) :
    ∃ tag, w.loop.nextTag ≤ tag ∧ Holds w (w₁.bInputAdd a p₂ fd cond f) a { p₂ with inpa := tag }
      (some ⟨tag, fd, cond, (f, a)⟩) wire O cs := by
  refine ⟨w₁.loop.nextTag, h.nextTag, { h with
    heap := ?_
    watches := fun y ↦ ?_
    nextTag := h.nextTag.trans (Nat.le_succ _)
    fresh := ?_ }⟩
  · show Function.update w₁.heap a _ = _
    rw [h.heap, Function.update_idem]
  · show y ∈ (w₁.loop.bInputAdd fd cond (f, a)).watches ↔ _
    rw [EventLoop.mem_bInputAdd, h.watches]
    simp [eq_comm]
  · rintro _ ⟨⟩
    exact .inr h.nextTag

theorem drop (h : Holds w w₁ a p none wire O cs) (fd : Fd) (o : Outcome) :
    Gone w (w₁.drop a fd o) a fd o wire O cs where
  heap := by
    show Function.update w₁.heap a none = _
    rw [h.heap, Function.update_idem]
  watches y := by
    show y ∈ w₁.loop.watches ↔ _
    rw [h.watches]
    simp
  nextTag := h.nextTag
  wire := h.wire
  openFds := h.openFds
  closes := h.closes
  next := h.next
  asked := h.asked
  phbHash := congrArg (List.filter _) h.phbHash
  ended := congrArg (· ++ [(a, o)]) h.ended

end Holds

/-! ## Connections -/

/-- What the record and its watch say of the stage of a connection. -/
def ShowsStage (p : PHB) (x : Watch (Handler × Nat)) : Stage → Prop
  | .connecting none gaiCur =>
      x.closure.1 = .proxyConnected ∧ p.gaiCur = gaiCur ∧ p.proxyFunc = none
  | .connecting (some (f, host, port)) gaiCur =>
      x.closure.1 = .proxyConnected ∧ p.gaiCur = gaiCur ∧ p.proxyFunc = some f ∧
        p.host = some host ∧ p.port = port
  | .handshake host port f => x.closure.1 = .read f ∧ p.host = some host ∧ p.port = port

/-- The record `a` and its watch are a connection. -/
structure Shows (c : Conn) (a : Nat) (p : PHB) (x : Watch (Handler × Nat)) : Prop where
  func : p.func = some c.func
  fd : p.fd = c.fd
  pos : 0 < c.fd
  watchFd : x.fd = c.fd
  inpa : p.inpa = x.tag
  owner : x.closure.2 = a
  stage : ShowsStage p x c.stage

/-- The code does with the record `a` what the verdict says. -/
def Effect (w : World) (a : Nat) (c : Conn) : Verdict → Option World → Prop
  | .crash, r => r = none
  | .ends source wire cs, r =>
      ∃ w', r = some w' ∧ Gone w w' a c.fd (.called c.func source) wire
        (if source = -1 then w.openFds.erase c.fd else w.openFds) cs
  | .waits c' cs, r =>
      ∃ w' p x, r = some w' ∧ Holds w w' a p (some x) c'.wire w.openFds cs ∧ Shows c' a p x ∧
        w.loop.nextTag ≤ x.tag
  | .stuck c' cs, r =>
      ∃ w' p x, r = some w' ∧ Holds w w' a p (some x) c'.wire (w.openFds.erase c.fd) cs ∧
        Shows c' a p x ∧ w.loop.nextTag ≤ x.tag

@[simp] theorem log_log (w : World) (a : Nat) (ms ms' : List Message) :
    (w.log a ms).log a ms' = w.log a (ms ++ ms') := by
  simp only [log, Function.update_self, Function.update_idem, List.append_assoc]

@[simp] theorem log_nil (w : World) (a : Nat) : w.log a [] = w := by
  simp only [log, List.append_nil, Function.update_eq_self]

theorem sendAll_eq (write : Nat → Int) (accept : Int → Nat → Bool) (i : Nat)
    (messages : List (List UInt8)) (w : World) :
    w.sendAll a write accept i messages =
      (w.log a (written write accept i messages).1, (written write accept i messages).2) := by
  induction messages generalizing i w with
  | nil => rw [sendAll, written, log_nil]
  | cons m messages ih =>
      rw [sendAll, written]
      split
      · rw [ih, log_log]
        rfl
      · rfl

/-- What is left to show of a reaction of the handshake. -/
theorem react_spec (ht : TableOk w.heap w.phbHash) (hp : (w.heap a).map PHB.fd = some p.fd)
    (h : Holds w w₁ a p none c.wire w.openFds []) (hfunc : p.func = some c.func)
    (hfd : p.fd = c.fd) (hpos : 0 < c.fd) (hopen : c.fd ∈ w.openFds) {host : CString}
    {port : Nat} (hhost : p.host = some host) (hport : p.port = port) (write : Nat → Int)
    (r : Reaction) :
    Effect w a c (c.react host port write r) (w₁.react a c.fd write r) := by
  have hne : c.fd ≠ -1 := ne_neg_one hpos
  have hfail : ∀ {w₂ wire}, Holds w w₂ a p none wire w.openFds [] →
      Effect w a c (.ends (-1) wire [(c.fd, true)]) (w₂.phbFail a) := by
    intro w₂ wire h
    refine ⟨_, phbFail_eq (h.tableOk ht hp) h.heap_self hfd hpos, ?_⟩
    rw [if_pos rfl, hfunc]
    have hclose := (h.closesocket c.fd).drop c.fd (.called c.func (-1))
    rwa [decide_eq_true hopen, List.nil_append] at hclose
  cases r with
  | fail => exact hfail h
  | connected =>
      refine ⟨_, phbConnected_eq (h.tableOk ht hp) h.heap_self hfd hfunc c.fd, ?_⟩
      rw [if_neg hne]
      exact h.drop _ _
  | send messages accept next =>
      have hlog := h.log (written write accept 0 messages).1
      rw [World.react, Conn.react, sendAll_eq]
      dsimp only
      split
      · obtain ⟨tag, htag, hadd⟩ := hlog.bInputAdd p c.fd .read (.read next)
        rw [hlog.heap_self]
        exact ⟨_, _, _, rfl, hadd, ⟨hfunc, hfd, hpos, rfl, rfl, rfl, rfl, hhost, hport⟩, htag⟩
      · exact hfail hlog

/-! ## Addresses -/

/-- The kernel gives out positive descriptors that are not open; 0, which the code takes for
none in `proxy_connected` and `phb_free`, is the standard input. -/
def Fresh (O : Finset Fd) (attempt : List SockAddr → Attempt) : Prop :=
  ∀ l fd, attempt l = .refused fd ∨ attempt l = .pending fd → 0 < fd ∧ fd ∉ O

theorem Fresh.of_firstPending {attempt : List SockAddr → Attempt} (h : Fresh O attempt)
    {l left : List SockAddr} {fd : Fd} (hl : (firstPending attempt l).2 = some (fd, left)) :
    0 < fd ∧ fd ∉ O := by
  induction l with
  | nil => cases hl
  | cons addr rest ih =>
      rw [firstPending] at hl
      split at hl
      · exact ih hl
      · exact ih hl
      · next hfd =>
          obtain ⟨rfl, rfl⟩ := Prod.mk.inj (Option.some.inj hl)
          exact h _ _ (.inr hfd)

/-- Descriptors were closed that are not open any more. -/
def noted (w : World) (cs : List (Fd × Bool)) : World := { w with closes := w.closes ++ cs }

theorem noted_nil (w : World) : w.noted [] = w := by simp only [noted, List.append_nil]

theorem noted_noted (w : World) (cs cs' : List (Fd × Bool)) :
    (w.noted cs).noted cs' = w.noted (cs ++ cs') := by
  simp only [noted, List.append_assoc]

/-- A descriptor that `connect` refused. -/
theorem closesocket_socket {fd : Fd} (h : fd ∉ w.openFds) :
    (w.socket fd).closesocket fd = w.noted [(fd, true)] := by
  simp only [socket, World.closesocket, noted, Finset.erase_insert h, Finset.mem_insert_self,
    decide_true]

theorem tryAddresses_eq {attempt : List SockAddr → Attempt} (l : List SockAddr) (w : World)
    (p : PHB) (h : Fresh w.openFds attempt) :
    tryAddresses a attempt l w p =
      match (firstPending attempt l).2 with
      | none =>
          ((w.noted (wereOpen (firstPending attempt l).1)).set a { p with gaiCur := [] }, -1)
      | some (fd, left) =>
          (((w.noted (wereOpen (firstPending attempt l).1)).socket fd).bInputAdd a
            { p with gaiCur := left, fd } fd .write .proxyConnected, fd) := by
  induction l generalizing w with
  | nil =>
      rw [tryAddresses, firstPending]
      exact congrArg (fun w : World ↦ (w.set a { p with gaiCur := [] }, (-1 : Fd)))
        (noted_nil w).symm
  | cons addr rest ih =>
      cases hattempt : attempt (addr :: rest) with
      | noSocket => simpa only [tryAddresses, firstPending, hattempt] using ih w h
      | refused fd =>
          have hfresh : fd ∉ w.openFds := (h _ _ (.inl hattempt)).2
          have hcons : (w.noted [(fd, true)]).noted (wereOpen (firstPending attempt rest).1) =
              w.noted (wereOpen (fd :: (firstPending attempt rest).1)) := noted_noted ..
          simp only [tryAddresses, firstPending, hattempt, closesocket_socket hfresh, ← hcons]
          exact ih _ h
      | pending fd =>
          simp only [tryAddresses, firstPending, hattempt]
          exact congrArg (fun w : World ↦ ((w.socket fd).bInputAdd a
            { p with gaiCur := addr :: rest, fd } fd .write .proxyConnected, fd))
            (noted_nil w).symm

namespace Holds

/-- The identifier of a watch that is gone removes nothing. -/
theorem bEventRemove_stale {x : Watch (Handler × Nat)} (h : Holds w w₁ a p none wire O cs)
    (hmem : x ∈ w.loop.watches) (hx : x.closure.2 = a) :
    Holds w (w₁.bEventRemove x.tag) a p none wire O cs :=
  { h with
    watches := fun y ↦ by
      show y ∈ (w₁.loop.bEventRemove x.tag).watches ↔ _
      rw [EventLoop.mem_bEventRemove, h.watches]
      refine and_iff_left_of_imp ?_
      rintro (hy | hy) htag
      · exact hy.2 (by rw [EventLoop.eq_of_tag_eq hy.1 hmem htag, hx])
      · cases hy }

/-- The next address is tried: its descriptor takes the number of the old one. -/
theorem moved {fd source : Fd} {f : Handler} (h : Holds w w₁ a p none wire O cs)
    (hfd : fd ∉ O) (hsource : source ∈ O) (p₂ : PHB) (cs' : List (Fd × Bool)) :
    Holds w ((((((w₁.noted cs').socket fd).bInputAdd a p₂ fd .write f).bEventRemove
      w₁.loop.nextTag).closesocket source).dup2 fd source |>.closesocket fd) a
      { p₂ with inpa := w₁.loop.nextTag } none wire O
      (cs ++ (cs' ++ [(source, true), (fd, true)])) := by
  have hne : fd ≠ source := fun h ↦ hfd (h ▸ hsource)
  have hmem : fd ∈ (insert fd w₁.openFds).erase source :=
    Finset.mem_erase.mpr ⟨hne, Finset.mem_insert_self ..⟩
  have hopen : (insert source ((insert fd w₁.openFds).erase source)).erase fd = O := by
    rw [Finset.insert_erase (Finset.mem_insert_of_mem (h.openFds ▸ hsource)),
      Finset.erase_insert (h.openFds ▸ hfd), h.openFds]
  have hloop : (w₁.loop.bInputAdd fd .write (f, a)).bEventRemove w₁.loop.nextTag = w₁.loop.pass :=
    EventLoop.bEventRemove_bInputAdd ..
  have hdup : ∀ w₂ : World, fd ∈ w₂.openFds →
      w₂.dup2 fd source = { w₂ with openFds := insert source w₂.openFds } :=
    fun w₂ h ↦ if_pos h
  rw [hdup _ hmem]
  refine { h with
    heap := ?_
    watches := fun y ↦ ?_
    nextTag := h.nextTag.trans (Nat.le_succ _)
    openFds := hopen
    closes := ?_ }
  · show Function.update w₁.heap a _ = _
    rw [h.heap, Function.update_idem]
    rfl
  · show y ∈ ((w₁.loop.bInputAdd fd .write (f, a)).bEventRemove w₁.loop.nextTag).watches ↔ _
    rw [hloop, EventLoop.watches_pass, h.watches]
  · have hs : source ∈ insert fd w₁.openFds := Finset.mem_insert_of_mem (h.openFds ▸ hsource)
    show w₁.closes ++ cs' ++ [(source, decide (source ∈ insert fd w₁.openFds))] ++
      [(fd, decide (fd ∈ insert source ((insert fd w₁.openFds).erase source)))] = _
    rw [decide_eq_true hs, decide_eq_true (Finset.mem_insert_of_mem hmem), h.closes]
    simp only [List.append_assoc, List.cons_append, List.nil_append]

theorem noted {x : Option (Watch (Handler × Nat))} (h : Holds w w₁ a p x wire O cs)
    (cs' : List (Fd × Bool)) : Holds w (w₁.noted cs') a p x wire O (cs ++ cs') :=
  { h with
    closes := by
      show w₁.closes ++ cs' = _
      rw [h.closes, List.append_assoc] }

/-- No address was left: the number of the old descriptor stays closed. -/
theorem exhausted {source : Fd} {x : Option (Watch (Handler × Nat))}
    (h : Holds w w₁ a p x wire O cs) (hneg : -1 ∉ O) (hsource : source ∈ O) :
    Holds w (((w₁.closesocket source).dup2 (-1) source).closesocket (-1)) a p x wire
      (O.erase source) (cs ++ [(source, true), (-1, false)]) := by
  have hclose := h.closesocket source
  have hout : -1 ∉ (w₁.closesocket source).openFds := by
    rw [hclose.openFds]
    exact fun h ↦ hneg (Finset.mem_of_mem_erase h)
  have hdup : (w₁.closesocket source).dup2 (-1) source = w₁.closesocket source := if_neg hout
  have hend := hclose.closesocket (-1)
  rw [hdup]
  rwa [Finset.erase_eq_of_notMem (hclose.openFds ▸ hout), decide_eq_true hsource,
    decide_eq_false (hclose.openFds ▸ hout), List.append_assoc] at hend

end Holds

/-! ## The functions -/

section

variable {x : Watch (Handler × Nat)} {ans : Answers}

/-- A `canwrite` function on a connection that is there. -/
theorem canwrite_open (h : Holds w w₁ a p none c.wire w.openFds [])
    (ht : TableOk w.heap w.phbHash) (hp : (w.heap a).map PHB.fd = some p.fd)
    (hfunc : p.func = some c.func)
    (hfd : p.fd = c.fd) (hpos : 0 < c.fd) (hinpa : p.inpa = 0) (hopen : c.fd ∈ w.openFds)
    {host : CString} {port : Nat} (hhost : p.host = some host) (hport : p.port = port)
    (f : ProxyFunc) :
    Effect w a c
      (if ans.getsockopt then
        c.react host port ans.write (Proxy.canwrite conf ans.gethostbyname host port f)
      else .ends (-1) c.wire [(c.fd, true)])
      (w₁.canwrite conf a c.fd ans f) := by
  have hreact := react_spec ht hp h hfunc hfd hpos hopen hhost hport ans.write
  rw [World.canwrite, h.heap_self, Option.bind_some, hinpa, if_neg (Nat.lt_irrefl 0)]
  dsimp only
  rw [h.openFds]
  by_cases hsock : ans.getsockopt
  · rw [if_pos hsock, if_pos ⟨hopen, hsock⟩, hhost, Option.bind_some, hport]
    exact hreact _
  · rw [if_neg hsock, if_neg fun h ↦ hsock h.2]
    exact hreact .fail

/-- A `canwrite` function on a connection that has failed. -/
theorem canwrite_failed
    (h : Holds w w₁ a p none c.wire (w.openFds.erase c.fd) [(c.fd, true)])
    (ht : TableOk w.heap w.phbHash) (hp : (w.heap a).map PHB.fd = some p.fd)
    (hfunc : p.func = some c.func) (hfd : p.fd = c.fd) (hpos : 0 < c.fd) (hinpa : p.inpa = 0)
    (hneg : -1 ∉ w.openFds) (f : ProxyFunc) :
    Effect w a c (.ends (-1) c.wire [(c.fd, true), (c.fd, false)])
      (w₁.canwrite conf a (-1) ans f) := by
  have hout : ¬ (-1 ∈ w₁.openFds ∧ ans.getsockopt) := by
    rw [h.openFds]
    exact fun h ↦ hneg (Finset.mem_of_mem_erase h.1)
  have hclose := (h.closesocket c.fd).drop c.fd (.called c.func (-1))
  rw [Finset.erase_idem, decide_eq_false (Finset.notMem_erase c.fd w.openFds)] at hclose
  rw [World.canwrite, h.heap_self, Option.bind_some, hinpa, if_neg (Nat.lt_irrefl 0)]
  dsimp only
  rw [if_neg hout, phbFail_eq (h.tableOk ht hp) h.heap_self hfd hpos, hfunc]
  exact ⟨_, rfl, hclose⟩

/-- `proxy_connected`, once there is a connection. -/
theorem proxyResolved_open (ht : TableOk w.heap w.phbHash)
    (hp : (w.heap a).map PHB.fd = some c.fd) (h : Holds w w₁ a p (some x) c.wire w.openFds [])
    (hs : Shows c a p x) (hopen : c.fd ∈ w.openFds)
    {via : Option (ProxyFunc × CString × Nat)} {gaiCur : List SockAddr}
    (hstage : c.stage = .connecting via gaiCur) :
    Effect w a c (c.resolved conf ans via) (w₁.proxyResolved conf a c.fd ans) := by
  have hset := (h.bEventRemove hs.owner).set { p with gai := [], inpa := 0 }
  have hfd : (w.heap a).map PHB.fd = some p.fd := hs.fd ▸ hp
  have hsh : ShowsStage p x (.connecting via gaiCur) := hstage ▸ hs.stage
  rw [proxyResolved, h.heap_self, Option.bind_some, hs.inpa]
  dsimp only
  generalize (w₁.bEventRemove x.tag).set a { p with gai := [], inpa := 0 } = w₂ at hset ⊢
  cases via with
  | none =>
      obtain ⟨-, -, hproxy⟩ := hsh
      rw [hproxy]
      refine ⟨_, phbConnected_eq (hset.tableOk ht hfd) hset.heap_self hs.fd hs.func c.fd, ?_⟩
      rw [if_neg (ne_neg_one hs.pos)]
      exact hset.drop _ _
  | some via =>
      obtain ⟨f, host, port⟩ := via
      obtain ⟨-, -, hproxy, hhost, hport⟩ := hsh
      rw [hproxy]
      exact canwrite_open hset ht hfd hs.func hs.fd hs.pos rfl hopen hhost hport f

/-- `proxy_connected`, once the last address has failed. -/
theorem proxyResolved_failed (ht : TableOk w.heap w.phbHash)
    (hp : (w.heap a).map PHB.fd = some c.fd)
    (h : Holds w w₁ a p (some x) c.wire (w.openFds.erase c.fd) [(c.fd, true)])
    (hs : Shows c a p x) (hneg : -1 ∉ w.openFds)
    {via : Option (ProxyFunc × CString × Nat)} {gaiCur : List SockAddr}
    (hstage : ShowsStage p x (.connecting via gaiCur)) :
    Effect w a c
      (.ends (-1) c.wire ((c.fd, true) :: if via = none then [] else [(c.fd, false)]))
      (w₁.proxyResolved conf a (-1) ans) := by
  have hset := (h.bEventRemove hs.owner).set { p with gai := [], inpa := 0 }
  have hfd : (w.heap a).map PHB.fd = some p.fd := hs.fd ▸ hp
  rw [proxyResolved, h.heap_self, Option.bind_some, hs.inpa]
  dsimp only
  generalize (w₁.bEventRemove x.tag).set a { p with gai := [], inpa := 0 } = w₂ at hset ⊢
  cases via with
  | none =>
      obtain ⟨-, -, hproxy⟩ := hstage
      rw [hproxy]
      refine ⟨_, phbConnected_eq (hset.tableOk ht hfd) hset.heap_self hs.fd hs.func (-1), ?_⟩
      rw [if_pos rfl, if_pos rfl]
      exact hset.drop _ _
  | some via =>
      obtain ⟨-, -, hproxy, -, -⟩ := hstage
      rw [hproxy, if_neg (Option.some_ne_none _)]
      exact canwrite_failed hset ht hfd hs.func hs.fd hs.pos rfl hneg _

/-- The record with the addresses that are left and a watch for the connection to one. -/
theorem Shows.connecting (hs : Shows c a p x) {via : Option (ProxyFunc × CString × Nat)}
    {gaiCur : List SockAddr} (hstage : c.stage = .connecting via gaiCur) (left : List SockAddr)
    (tag : Nat) (cond : BInputCondition) :
    Shows { c with stage := .connecting via left } a
      { p with gaiCur := left, fd := c.fd, inpa := tag }
      ⟨tag, c.fd, cond, (.proxyConnected, a)⟩ := by
  have hsh : ShowsStage p x (.connecting via gaiCur) := hstage ▸ hs.stage
  refine ⟨hs.func, rfl, hs.pos, rfl, rfl, rfl, ?_⟩
  cases via with
  | none => exact ⟨rfl, rfl, hsh.2.2⟩
  | some via => exact ⟨rfl, rfl, hsh.2.2⟩

/-- `proxy_connected`, where there is another address to try. -/
theorem proxyConnectNext_spec (hmem : x ∈ w.loop.watches)
    (h : Holds w w₁ a p none c.wire w.openFds []) (hs : Shows c a p x)
    {via : Option (ProxyFunc × CString × Nat)} {next : SockAddr} {rest : List SockAddr}
    (hstage : c.stage = .connecting via (next :: rest)) (hopen : c.fd ∈ w.openFds)
    (hneg : -1 ∉ w.openFds) (hfresh : Fresh w.openFds ans.attempt) (addr : SockAddr) :
    Effect w a c (c.retry ans via (addr :: next :: rest))
      ((w₁.proxyConnectNext a ans.attempt).bind fun (w₁, newFd) ↦
        if newFd = 0 then (w₁.closesocket c.fd).proxyResolved conf a (-1) ans
        else
          (w₁.heap a).map fun p ↦
            let w₁ := ((w₁.bEventRemove p.inpa).closesocket c.fd).dup2 newFd c.fd
            (w₁.closesocket newFd).bInputAdd a { p with fd := c.fd } c.fd .write
              .proxyConnected) := by
  have hgai : p.gaiCur = next :: rest := by
    have hsh : ShowsStage p x (.connecting via (next :: rest)) := hstage ▸ hs.stage
    cases via <;> exact hsh.2.1
  rw [proxyConnectNext, h.heap_self, Option.map_some, Option.bind_some, hgai,
    tryAddresses_eq _ _ _ (h.openFds ▸ hfresh), Conn.retry]
  cases htried : (firstPending ans.attempt (next :: rest)).2 with
  | none =>
      dsimp only
      have hset := (h.noted (wereOpen (firstPending ans.attempt (next :: rest)).1)).set
        { p with gaiCur := [] }
      have hstale := hset.bEventRemove_stale hmem hs.owner
      rw [← hs.inpa] at hstale
      obtain ⟨tag, htag, hadd⟩ := (hstale.exhausted hneg hopen).bInputAdd
        { p with gaiCur := [], fd := c.fd } c.fd .write .proxyConnected
      rw [if_neg (by decide), hset.heap_self, Option.map_some]
      exact ⟨_, _, _, rfl, hadd, hs.connecting hstage [] tag .write, htag⟩
  | some tried =>
      obtain ⟨fd, left⟩ := tried
      obtain ⟨hpos, hfd⟩ := hfresh.of_firstPending htried
      dsimp only
      have hheap : (((w₁.noted (wereOpen (firstPending ans.attempt (next :: rest)).1)).socket
          fd).bInputAdd a { p with gaiCur := left, fd } fd .write .proxyConnected).heap a =
          some { p with gaiCur := left, fd, inpa := w₁.loop.nextTag } := Function.update_self ..
      rw [if_neg hpos.ne', hheap]
      obtain ⟨tag, htag, hadd⟩ := (h.moved hfd hopen { p with gaiCur := left, fd }
        (wereOpen (firstPending ans.attempt (next :: rest)).1)).bInputAdd
          { p with gaiCur := left, fd := c.fd } c.fd .write .proxyConnected
      exact ⟨_, _, _, rfl, hadd, hs.connecting hstage left tag .write, htag⟩

/-- `proxy_connected`. -/
theorem proxyConnected_spec (ht : TableOk w.heap w.phbHash) (hp : w.heap a = some p)
    (hmem : x ∈ w.loop.watches) (hx : ∀ y ∈ w.loop.watches, y.closure.2 = a → y = x)
    (hs : Shows c a p x) (hwire : c.wire = w.wire a) (hopen : c.fd ∈ w.openFds)
    (hneg : -1 ∉ w.openFds) (hfresh : Fresh w.openFds ans.attempt)
    {via : Option (ProxyFunc × CString × Nat)} {gaiCur : List SockAddr}
    (hstage : c.stage = .connecting via gaiCur) :
    Effect w a c (c.ready conf ans) (w.proxyConnected conf a c.fd ans) := by
  have h := Holds.refl hp hx hmem
  rw [← hwire] at h
  have hfd : (w.heap a).map PHB.fd = some c.fd := by rw [hp, Option.map_some, hs.fd]
  have hsh : ShowsStage p x (.connecting via gaiCur) := hstage ▸ hs.stage
  have hgai : p.gaiCur = gaiCur := by cases via <;> exact hsh.2.1
  rw [proxyConnected, hp, Option.bind_some, Conn.ready, hstage, hgai]
  dsimp only
  by_cases hconn : ans.connected
  · have hok : c.fd ∈ w.openFds ∧ ans.connected := ⟨hopen, hconn⟩
    rw [if_pos hconn, if_pos hok]
    exact proxyResolved_open ht hfd h hs hopen hstage
  · have hno : ¬ (c.fd ∈ w.openFds ∧ ans.connected) := fun h ↦ hconn h.2
    rw [if_neg hconn, if_neg hno]
    -- The record and its watch with the addresses behind the one that failed.
    have hrest : ∀ rest, Shows { c with stage := .connecting via rest } a
        { p with gaiCur := rest } x := by
      refine fun rest ↦ ⟨hs.func, hs.fd, hs.pos, hs.watchFd, hs.inpa, hs.owner, ?_⟩
      cases via with
      | none => exact ⟨hsh.1, rfl, hsh.2.2⟩
      | some via => exact ⟨hsh.1, rfl, hsh.2.2⟩
    rcases gaiCur with _ | ⟨addr, _ | ⟨next, rest⟩⟩
    · rfl
    · have hclose := (h.set { p with gaiCur := [] }).closesocket c.fd
      rw [decide_eq_true hopen] at hclose
      exact proxyResolved_failed (c := { c with stage := .connecting via [] }) ht hfd hclose
        (hrest []) hneg (hrest []).stage
    · have hquiet := (h.set { p with gaiCur := next :: rest }).bEventRemove hs.owner
      rw [← hs.inpa] at hquiet
      dsimp only
      rw [if_neg (List.cons_ne_nil _ _)]
      exact proxyConnectNext_spec (c := { c with stage := .connecting via (next :: rest) }) hmem
        hquiet (hrest _) rfl hopen hneg hfresh addr

/-- The functions of the handshake. -/
theorem canread_spec (ht : TableOk w.heap w.phbHash) (hp : w.heap a = some p)
    (hmem : x ∈ w.loop.watches) (hx : ∀ y ∈ w.loop.watches, y.closure.2 = a → y = x)
    (hs : Shows c a p x) (hwire : c.wire = w.wire a) (hopen : c.fd ∈ w.openFds) {host : CString}
    {port : Nat} {f : ReadFunc} (hstage : c.stage = .handshake host port f) :
    Effect w a c (c.ready conf ans) (w.canread conf a c.fd ans f) := by
  have h := Holds.refl hp hx hmem
  rw [← hwire] at h
  have hfd : (w.heap a).map PHB.fd = some p.fd := by rw [hp, Option.map_some]
  obtain ⟨-, hhost, hport⟩ : ShowsStage p x (.handshake host port f) := hstage ▸ hs.stage
  have hlog := (h.bEventRemove hs.owner).log [.received (readOf f ans.stream)]
  rw [World.canread, hp, Option.bind_some, Conn.ready, hstage, hs.inpa]
  dsimp only
  rw [hhost, Option.bind_some, hport]
  exact react_spec (c := { c with wire := c.wire ++ [.received (readOf f ans.stream)] }) ht hfd
    hlog hs.func hs.fd hs.pos hopen hhost hport _ _

end

end World

end TelepathyFacebook
