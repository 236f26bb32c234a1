import TelepathyFacebook.Proxy

/-!
# One connection by itself

What a connection of `Proxy` does when its descriptor is ready, without the memory, the table
and the watches that it shares with the others.  `ProxySteps` shows that the code is as many
of these as there are connections, none of which knows of another.

* `Conn.measure_ready`: every time the descriptor is ready the connection comes closer to its
  end.
-/

namespace TelepathyFacebook

namespace Proxy

/-- What a connection waits for. -/
inductive Stage where
  /-- The connection to one of the addresses that are left; then the handshake with a proxy
  for a host and a port, if there is one. -/
  | connecting (via : Option (ProxyFunc × CString × Nat)) (gaiCur : List SockAddr)
  /-- An answer of the proxy. -/
  | handshake (host : CString) (port : Nat) (f : ReadFunc)
deriving DecidableEq

/-- A connection that is under way. -/
structure Conn where
  func : Client
  fd : Fd
  stage : Stage
  wire : List Message
deriving DecidableEq

/-- What comes of a descriptor being ready, with the descriptors that were closed. -/
inductive Verdict where
  /-- A NULL dereference. -/
  | crash
  /-- The function is called. -/
  | ends (source : Fd) (wire : List Message) (closes : List (Fd × Bool))
  | waits (c : Conn) (closes : List (Fd × Bool))
  /-- The connection waits for a descriptor that is closed. -/
  | stuck (c : Conn) (closes : List (Fd × Bool))

/-- The loop of `proxy_connect_none`: the descriptors that were refused, and the first that
was not, with what was left of the list then. -/
def firstPending (attempt : List SockAddr → Attempt) :
    List SockAddr → List Fd × Option (Fd × List SockAddr)
  | [] => ([], none)
  | addr :: rest =>
      match attempt (addr :: rest) with
      | .noSocket => firstPending attempt rest
      | .refused fd => (fd :: (firstPending attempt rest).1, (firstPending attempt rest).2)
      | .pending fd => ([], some (fd, addr :: rest))

/-- The messages that are written, and whether all of them were accepted. -/
def written (write : Nat → Int) (accept : Int → Nat → Bool) :
    Nat → List (List UInt8) → List Message × Bool
  | _, [] => ([], true)
  | i, m :: ms =>
      if accept (write i) m.length then
        (.sent (m.take (write i).toNat) :: (written write accept (i + 1) ms).1,
          (written write accept (i + 1) ms).2)
      else ([.sent (m.take (write i).toNat)], false)

/-- Descriptors that were open when they were closed. -/
def wereOpen (fds : List Fd) : List (Fd × Bool) := fds.map (·, true)

theorem all_wereOpen {fds : List Fd} : ∀ r ∈ wereOpen fds, r.2 :=
  List.forall_mem_map.mpr fun _ _ ↦ rfl

/-- The handshake that `proxy_connect` chooses, with the host and port for it. -/
def viaProxy (conf : Conf) (host : CString) (port : Int) : Option (ProxyFunc × CString × Nat) :=
  (World.connectFunc conf).map (·, host, World.unsignedShort port)

/-- The addresses that are tried: those of the proxy, if there is one. -/
def addresses (conf : Conf) (host : CString) (port : Int)
    (getaddrinfo : CString → Nat → List SockAddr) : List SockAddr :=
  match World.connectFunc conf with
  | none => getaddrinfo host (World.unsignedShort port)
  | some _ => getaddrinfo conf.proxyhost (World.unsignedShort conf.proxyport)

namespace Conn

/-- The connection that `proxy_connect` starts, if an address is not refused at once. -/
def dial (conf : Conf) (host : CString) (port : Int) (func : Client)
    (getaddrinfo : CString → Nat → List SockAddr) (attempt : List SockAddr → Attempt) :
    Option Conn :=
  (firstPending attempt (addresses conf host port getaddrinfo)).2.map fun (fd, left) ↦
    ⟨func, fd, .connecting (viaProxy conf host port) left, []⟩

def react (c : Conn) (host : CString) (port : Nat) (write : Nat → Int) : Reaction → Verdict
  | .fail => .ends (-1) c.wire [(c.fd, true)]
  | .connected => .ends c.fd c.wire []
  | .send messages accept next =>
      let wire := c.wire ++ (written write accept 0 messages).1
      if (written write accept 0 messages).2 then
        .waits { c with stage := .handshake host port next, wire } []
      else .ends (-1) wire [(c.fd, true)]

/-- The connection to an address is there. -/
def resolved (conf : Conf) (c : Conn) (a : Answers) :
    Option (ProxyFunc × CString × Nat) → Verdict
  | none => .ends c.fd c.wire []
  | some (f, host, port) =>
      if a.getsockopt then
        c.react host port a.write (canwrite conf a.gethostbyname host port f)
      else .ends (-1) c.wire [(c.fd, true)]

/-- The connection to the first of the addresses has failed. -/
def retry (c : Conn) (a : Answers) (via : Option (ProxyFunc × CString × Nat)) :
    List SockAddr → Verdict
  | [] => .crash
  -- The second close is that of `phb_free`, which does not know of the first.
  | [_] => .ends (-1) c.wire ((c.fd, true) :: if via = none then [] else [(c.fd, false)])
  | _ :: next :: rest =>
      let tried := firstPending a.attempt (next :: rest)
      match tried.2 with
      | some (fd, left) =>
          .waits { c with stage := .connecting via left }
            (wereOpen tried.1 ++ [(c.fd, true), (fd, true)])
      | none =>
          .stuck { c with stage := .connecting via [] }
            (wereOpen tried.1 ++ [(c.fd, true), (-1, false)])

/-- The descriptor is ready. -/
def ready (conf : Conf) (c : Conn) (a : Answers) : Verdict :=
  match c.stage with
  | .handshake host port f =>
      let c := { c with wire := c.wire ++ [Message.received (readOf f a.stream)] }
      c.react host port a.write (canread conf host port a.stream a.junk f)
  | .connecting via gaiCur =>
      if a.connected then c.resolved conf a via else c.retry a via gaiCur

/-! ## Progress -/

/-- How often the descriptor can be ready before the function is called. -/
def rank : ReadFunc → Nat
  | .httpCanread | .s4Canread | .s5CanreadAgain => 1
  | .s5Readauth => 2
  | .s5Canread => 3

def measure (c : Conn) : Nat :=
  match c.stage with
  | .connecting _ gaiCur => gaiCur.length + 3
  | .handshake _ _ f => rank f

/-- There is an address left to connect to. -/
def Hopeful (c : Conn) : Prop := ∀ via, c.stage ≠ .connecting via []

variable {conf : Conf} {c c' : Conn} {a : Answers} {cs : List (Fd × Bool)}

theorem suffix_of_firstPending {attempt : List SockAddr → Attempt} {l left : List SockAddr}
    {fd : Fd} (h : (firstPending attempt l).2 = some (fd, left)) : left <:+ l ∧ left ≠ [] := by
  induction l with
  | nil => cases h
  | cons addr rest ih =>
      rw [firstPending] at h
      split at h
      · exact (ih h).imp_left (·.trans (List.suffix_cons _ _))
      · exact (ih h).imp_left (·.trans (List.suffix_cons _ _))
      · obtain ⟨rfl, rfl⟩ := Prod.mk.inj (Option.some.inj h)
        exact ⟨List.suffix_rfl, List.cons_ne_nil _ _⟩

/-- A reaction that waits does so for the next function. -/
theorem react_waits {host : CString} {port : Nat} {write : Nat → Int} {r : Reaction}
    (h : c.react host port write r = .waits c' cs) :
    ∃ messages accept next, r = .send messages accept next ∧
      (written write accept 0 messages).2 ∧ cs = [] ∧
      c' = { c with
        stage := .handshake host port next
        wire := c.wire ++ (written write accept 0 messages).1 } := by
  cases r with
  | fail => cases h
  | connected => cases h
  | send messages accept next =>
      rw [react] at h
      split at h
      · next hw =>
          obtain ⟨rfl, rfl⟩ := Verdict.waits.inj h
          exact ⟨messages, accept, next, rfl, hw, rfl, rfl⟩
      · cases h

/-- The functions that wait for an answer wait in turn. -/
theorem rank_of_canread {host : CString} {port : Nat} {stream : List UInt8} {junk : UInt8}
    {f next : ReadFunc} {messages : List (List UInt8)} {accept : Int → Nat → Bool}
    (h : canread conf host port stream junk f = .send messages accept next) :
    rank next < rank f := by
  cases f with
  | httpCanread => rw [canread, httpCanread] at h; split at h <;> cases h
  | s4Canread => rw [canread, s4Canread] at h; split at h <;> cases h
  | s5CanreadAgain =>
      rw [canread, s5CanreadAgain] at h
      split at h
      · cases h
      · split at h <;> cases h
  | s5Readauth =>
      rw [canread, s5Readauth] at h
      split at h
      · cases h
      · split at h
        · cases h
        · obtain ⟨-, -, rfl⟩ := Reaction.send.inj h
          decide
  | s5Canread =>
      rw [canread, s5Canread] at h
      split at h
      · cases h
      · split at h
        · cases h
        · split at h
          · obtain ⟨-, -, rfl⟩ := Reaction.send.inj h
            decide
          · obtain ⟨-, -, rfl⟩ := Reaction.send.inj h
            decide

theorem rank_le (f : ReadFunc) : rank f ≤ 3 := by cases f <;> decide

/-- A connection that is tried again has fewer addresses left. -/
theorem retry_waits {via : Option (ProxyFunc × CString × Nat)} {l : List SockAddr}
    (h : c.retry a via l = .waits c' cs) :
    ∃ fd left, (firstPending a.attempt l.tail).2 = some (fd, left) ∧
      c' = { c with stage := .connecting via left } ∧ left ≠ [] ∧ left.length < l.length ∧
      cs = wereOpen (firstPending a.attempt l.tail).1 ++ [(c.fd, true), (fd, true)] := by
  match l, h with
  | addr :: next :: rest, h =>
      rw [retry] at h
      split at h
      · next fd left htried =>
          obtain ⟨rfl, rfl⟩ := Verdict.waits.inj h
          obtain ⟨hsuffix, hleft⟩ := suffix_of_firstPending htried
          refine ⟨fd, left, htried, rfl, hleft, ?_, rfl⟩
          rw [List.length_cons]
          exact Nat.lt_succ_of_le hsuffix.length_le
      · cases h

theorem resolved_waits {via : Option (ProxyFunc × CString × Nat)}
    (h : c.resolved conf a via = .waits c' cs) :
    ∃ f host port next wire, via = some (f, host, port) ∧
      c' = { c with stage := .handshake host port next, wire } ∧ cs = [] := by
  match via, h with
  | some (f, host, port), h =>
      rw [resolved] at h
      split at h
      · obtain ⟨messages, accept, next, -, -, rfl, rfl⟩ := react_waits h
        exact ⟨f, host, port, next, _, rfl, rfl, rfl⟩
      · cases h

/-- A connection that goes on has its descriptor and its function still. -/
theorem ready_waits_same (h : c.ready conf a = .waits c' cs) :
    c'.fd = c.fd ∧ c'.func = c.func := by
  rw [ready] at h
  split at h
  · obtain ⟨_, _, _, -, -, -, rfl⟩ := react_waits h
    exact ⟨rfl, rfl⟩
  · split at h
    · obtain ⟨_, _, _, _, _, -, rfl, -⟩ := resolved_waits h
      exact ⟨rfl, rfl⟩
    · obtain ⟨_, _, -, rfl, -⟩ := retry_waits h
      exact ⟨rfl, rfl⟩

theorem react_ne_stuck {host : CString} {port : Nat} {write : Nat → Int} {r : Reaction} :
    c.react host port write r ≠ .stuck c' cs := by
  cases r with
  | fail => exact fun h ↦ Verdict.noConfusion h
  | connected => exact fun h ↦ Verdict.noConfusion h
  | send messages accept next =>
      rw [react]
      split <;> exact fun h ↦ Verdict.noConfusion h

theorem react_ne_crash {host : CString} {port : Nat} {write : Nat → Int} {r : Reaction} :
    c.react host port write r ≠ .crash := by
  cases r with
  | fail => exact fun h ↦ Verdict.noConfusion h
  | connected => exact fun h ↦ Verdict.noConfusion h
  | send messages accept next =>
      rw [react]
      split <;> exact fun h ↦ Verdict.noConfusion h

/-- The first of several addresses has failed, and so do all others at once. -/
def Exhausted (c : Conn) (a : Answers) : Prop :=
  ¬ a.connected ∧ ∃ via addr next rest, c.stage = .connecting via (addr :: next :: rest) ∧
    (firstPending a.attempt (next :: rest)).2 = none

theorem resolved_ne_stuck {via : Option (ProxyFunc × CString × Nat)} :
    c.resolved conf a via ≠ .stuck c' cs := by
  cases via with
  | none => exact fun h ↦ Verdict.noConfusion h
  | some via =>
      rw [resolved]
      split
      · exact react_ne_stuck
      · exact fun h ↦ Verdict.noConfusion h

/-- A connection gets stuck when it runs out of addresses in a retry. -/
theorem ready_eq_stuck_iff : (∃ c' cs, c.ready conf a = .stuck c' cs) ↔ c.Exhausted a := by
  rw [ready, Exhausted]
  cases c.stage with
  | handshake host port f =>
      exact iff_of_false (fun ⟨_, _, h⟩ ↦ react_ne_stuck h) (by rintro ⟨-, _, _, _, _, ⟨⟩, -⟩)
  | connecting via l =>
      dsimp only
      split
      · next hconn =>
          exact iff_of_false (fun ⟨_, _, h⟩ ↦ resolved_ne_stuck h) fun h ↦ h.1 hconn
      · next hconn =>
          match l with
          | [] => exact iff_of_false (by rintro ⟨_, _, ⟨⟩⟩) (by rintro ⟨-, _, _, _, _, ⟨⟩, -⟩)
          | [_] => exact iff_of_false (by rintro ⟨_, _, ⟨⟩⟩) (by rintro ⟨-, _, _, _, _, ⟨⟩, -⟩)
          | addr :: next :: rest =>
              rw [retry]
              split
              · next htried =>
                  refine iff_of_false (by rintro ⟨_, _, ⟨⟩⟩) ?_
                  rintro ⟨-, _, _, _, _, ⟨⟩, hnone⟩
                  rw [htried] at hnone
                  cases hnone
              · next htried =>
                  exact iff_of_true ⟨_, _, rfl⟩ ⟨hconn, via, addr, next, rest, rfl, htried⟩

theorem ready_stuck_same (h : c.ready conf a = .stuck c' cs) :
    c'.fd = c.fd ∧ c'.func = c.func ∧ c'.wire = c.wire ∧ ∃ via, c'.stage = .connecting via [] := by
  rw [ready] at h
  split at h
  · exact absurd h react_ne_stuck
  · next via l _ =>
      split at h
      · exact absurd h resolved_ne_stuck
      · match l, h with
        | _ :: _ :: _, h =>
            rw [retry] at h
            split at h
            · cases h
            · obtain ⟨rfl, -⟩ := Verdict.stuck.inj h
              exact ⟨rfl, rfl, rfl, via, rfl⟩

/-- **Progress.**  When the descriptor is ready, the connection ends or comes closer to its
end. -/
theorem measure_ready (hc : c.Hopeful) (h : c.ready conf a = .waits c' cs) :
    c'.measure < c.measure ∧ c'.Hopeful := by
  obtain ⟨func, fd, stage, wire⟩ := c
  cases stage with
  | handshake host port f =>
      obtain ⟨messages, accept, next, hr, -, -, rfl⟩ := react_waits h
      exact ⟨rank_of_canread hr, fun via h ↦ Stage.noConfusion h⟩
  | connecting via gaiCur =>
      have hpos : 0 < gaiCur.length := List.length_pos_iff.mpr fun h ↦ hc via (h ▸ rfl)
      have hmeasure : measure ⟨func, fd, .connecting via gaiCur, wire⟩ = gaiCur.length + 3 := rfl
      rw [ready] at h
      dsimp only at h
      split at h
      · obtain ⟨_, _, _, next, _, -, rfl, -⟩ := resolved_waits h
        have hle : rank next ≤ 3 := rank_le next
        refine ⟨?_, fun via h ↦ Stage.noConfusion h⟩
        show rank next < _
        omega
      · obtain ⟨_, left, -, rfl, hleft, hlt, -⟩ := retry_waits h
        refine ⟨?_, fun via h ↦ hleft (Stage.connecting.inj h).2⟩
        show left.length + 3 < _
        omega

end Conn

end Proxy

end TelepathyFacebook
