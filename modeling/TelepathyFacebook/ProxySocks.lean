import TelepathyFacebook.ProxyTalk
import TelepathyFacebook.Lib.Fields

/-!
# What a SOCKS proxy understands

Readers of the bytes that come in at a SOCKS5 and at a SOCKS4 proxy.

* `Socks5.read_sentBytes`, `Socks4.read_packet`, `Socks4.read_name`: what they make of the
  messages of `ProxyWire`.
* `socks5_served`, `socks4_served`: in every run of the code a function is called with a
  descriptor only where the proxy was asked for the right server and has agreed.
-/

namespace TelepathyFacebook

open Fields

namespace Proxy

variable {conf : Conf} {resolves : CString → Addr4 → Prop} {host : CString} {port : Nat}

theorem word_portBytes (hport : port < 65536) (s : List UInt8) :
    word (portBytes port ++ s) = some (port, s) := by
  have hupper : (UInt8.ofNat (port >>> 8)).toNat = port / 256 := by
    rw [Nat.shiftRight_eq_div_pow, UInt8.toNat_ofNat_of_lt' (by show _ < 256; omega)]
  have hlower : (UInt8.ofNat (port &&& 0xff)).toNat = port % 256 := by
    have hand : port &&& 0xff = port % 256 := Nat.and_two_pow_sub_one_eq_mod port 8
    rw [hand, UInt8.toNat_ofNat_of_lt' (Nat.mod_lt _ (by decide))]
  have hsplit : portBytes port ++ s =
      UInt8.ofNat (port >>> 8) :: UInt8.ofNat (port &&& 0xff) :: s := rfl
  rw [hsplit, word, hupper, hlower, Nat.div_add_mod']

/-! ## SOCKS5 -/

/-- A session as a SOCKS5 proxy sees it. -/
structure Socks5 where
  methods : List UInt8
  login : Option (List UInt8 × List UInt8)
  target : Option (List UInt8 × Nat)
deriving DecidableEq

namespace Socks5

/-- The methods that the client offers. -/
def readOffer : List UInt8 → Option (List UInt8 × List UInt8)
  | 5 :: s => block s
  | _ => none

/-- The user and the password. -/
def readLogin : List UInt8 → Option ((List UInt8 × List UInt8) × List UInt8)
  | 1 :: s => (block s).bind fun (user, s) ↦ (block s).map fun (pass, s) ↦ ((user, pass), s)
  | _ => none

/-- A request to connect to a host by its name. -/
def readRequest : List UInt8 → Option ((List UInt8 × Nat) × List UInt8)
  | 5 :: 1 :: 0 :: 3 :: s => (block s).bind fun (host, s) ↦ (word s).map fun (port, s) ↦
      ((host, port), s)
  | _ => none

/-- Everything that comes in, where the proxy chose the method; the request may not come. -/
def read (method : UInt8) (s : List UInt8) : Option Socks5 :=
  (readOffer s).bind fun (methods, s) ↦
    let login :=
      if method = 2 then (readLogin s).map fun (login, s) ↦ (some login, s) else some (none, s)
    login.bind fun (login, s) ↦
      if s = [] then some ⟨methods, login, none⟩
      else
        (readRequest s).bind fun (target, s) ↦
          if s = [] then some ⟨methods, login, some target⟩ else none

theorem readOffer_greeting (conf : Conf) (s : List UInt8) :
    readOffer (s5Greeting conf ++ s) =
      some (if conf.proxyuser.bytes = [] then [0] else [0, 2], s) := by
  rw [s5Greeting]
  split <;> rfl

theorem readLogin_auth (conf : Conf) (s : List UInt8) :
    readLogin (s5Auth conf ++ s) = some ((conf.proxyuser.bytes, conf.proxypass.bytes), s) := by
  have huser : conf.proxyuser.bytes.length < 256 := conf.length_proxyuser.trans (by decide)
  have hpass : conf.proxypass.bytes.length < 256 := conf.length_proxypass.trans (by decide)
  have hsplit : s5Auth conf ++ s = 1 :: UInt8.ofNat conf.proxyuser.bytes.length ::
      (conf.proxyuser.bytes ++ UInt8.ofNat conf.proxypass.bytes.length ::
        (conf.proxypass.bytes ++ s)) := by
    simp [s5Auth]
  rw [hsplit, readLogin, block_append huser, Option.bind_some]
  dsimp only
  rw [block_append hpass, Option.map_some]

theorem readRequest_connect (hlen : host.bytes.length ≤ 128) (hport : port < 65536) :
    readRequest (s5Connect host port) = some ((host.bytes, port), []) := by
  have hsplit : s5Connect host port = 5 :: 1 :: 0 :: 3 :: UInt8.ofNat host.bytes.length ::
      (host.bytes ++ (portBytes port ++ [])) := by
    simp [s5Connect]
  rw [hsplit, readRequest, block_append (by omega), Option.bind_some]
  dsimp only
  rw [word_portBytes hport, Option.map_some]

/-- **Round trip.**  The proxy reads what was offered, the user and the password if it asked for
them, and the host and the port. -/
theorem read_sentBytes {method : UInt8} {request answer : List UInt8}
    (hlen : host.bytes.length ≤ 128) (hport : port < 65536)
    (hrequest : request = s5Connect host port ∨ request = []) :
    read method (sentBytes (s5Offer conf method ++ s5Login conf method ++ [.sent request] ++
        [.received answer])) =
      some ⟨if conf.proxyuser.bytes = [] then [0] else [0, 2],
        if method = 2 then some (conf.proxyuser.bytes, conf.proxypass.bytes) else none,
        if request = [] then none else some (host.bytes, port)⟩ := by
  have hsent : sentBytes (s5Offer conf method ++ s5Login conf method ++ [.sent request] ++
      [.received answer]) =
        s5Greeting conf ++ ((if method = 2 then s5Auth conf else []) ++ request) := by
    rw [s5Login]
    split <;> simp [s5Offer, sentBytes]
  have htarget : ∀ login, (if request = [] then
        some (⟨if conf.proxyuser.bytes = [] then [0] else [0, 2], login, none⟩ : Socks5)
      else (readRequest request).bind fun (target, s) ↦ if s = [] then
        some ⟨if conf.proxyuser.bytes = [] then [0] else [0, 2], login, some target⟩ else none) =
      some ⟨if conf.proxyuser.bytes = [] then [0] else [0, 2], login,
        if request = [] then none else some (host.bytes, port)⟩ := by
    intro login
    rcases hrequest with rfl | rfl
    · have hne : s5Connect host port ≠ [] := List.cons_ne_nil _ _
      rw [if_neg hne, if_neg hne, readRequest_connect hlen hport, Option.bind_some]
      exact if_pos rfl
    · rw [if_pos rfl, if_pos rfl]
  rw [hsent, read, readOffer_greeting, Option.bind_some]
  dsimp only
  by_cases hmethod : method = 2
  · rw [if_pos hmethod, if_pos hmethod, if_pos hmethod, readLogin_auth, Option.map_some,
      Option.bind_some]
    exact htarget _
  · rw [if_neg hmethod, if_neg hmethod, if_neg hmethod, Option.bind_some, List.nil_append]
    exact htarget _

/-- A session that has ended well: the proxy has chosen a method and granted a request, and
what it was sent is the offer, the user and the password exactly if it asked for them, and the
request; or no request, where the write failed and `s5_sendconnect` missed it. -/
structure Served (conf : Conf) (host : CString) (port : Nat) (method : UInt8)
    (answer : List UInt8) (target : Option (List UInt8 × Nat)) (wire : List Message) : Prop where
  answers : answers wire = [[5, method]] ++ (if method = 2 then [[1, 0]] else []) ++ [answer]
  acceptable : method ≠ 0xff
  granted : 10 ≤ answer.length ∧ answer[0]? = some 5 ∧ answer[1]? = some 0
  read : read method (sentBytes wire) = some
    ⟨if conf.proxyuser.bytes = [] then [0] else [0, 2],
      if method = 2 then some (conf.proxyuser.bytes, conf.proxypass.bytes) else none, target⟩
  target : target = some (host.bytes, port) ∨ target = none

end Socks5

/-! ## SOCKS4 -/

/-- Where a SOCKS4 proxy is to connect to. -/
inductive Socks4Target where
  | address (addr : Addr4)
  | name (host : List UInt8)
deriving DecidableEq

/-- A request as a SOCKS4 proxy sees it. -/
structure Socks4 where
  target : Socks4Target
  port : Nat
  user : List UInt8
deriving DecidableEq

namespace Socks4

/-- The version, the command to connect, and the port. -/
def readPort : List UInt8 → Option (Nat × List UInt8)
  | 4 :: 1 :: s => word s
  | _ => none

def readAddr : List UInt8 → Option (Addr4 × List UInt8)
  | a :: b :: c :: d :: s => some ((a, b, c, d), s)
  | _ => none

/-- Everything that comes in.  A proxy with the extension 4A takes an address 0.0.0.x for the
sign that a name follows. -/
def read (extended : Bool) (s : List UInt8) : Option Socks4 :=
  (readPort s).bind fun (port, s) ↦ (readAddr s).bind fun (addr, s) ↦
    (field 0 s).bind fun (user, s) ↦
      if extended ∧ addr.1 = 0 ∧ addr.2.1 = 0 ∧ addr.2.2.1 = 0 ∧ addr.2.2.2 ≠ 0 then
        (field 0 s).bind fun (name, s) ↦ if s = [] then some ⟨.name name, port, user⟩ else none
      else if s = [] then some ⟨.address addr, port, user⟩
      else none

theorem readPort_packet (hport : port < 65536) (addr : Addr4) (s : List UInt8) :
    readPort (s4Packet port addr ++ s) =
      some (port, addr.1 :: addr.2.1 :: addr.2.2.1 :: addr.2.2.2 :: 0 :: s) := by
  have hsplit : s4Packet port addr ++ s =
      4 :: 1 :: (portBytes port ++ addr.1 :: addr.2.1 :: addr.2.2.1 :: addr.2.2.2 :: 0 :: s) := by
    simp [s4Packet]
  rw [hsplit, readPort, word_portBytes hport]

theorem field_zero (s : List UInt8) : field 0 (0 :: s) = some ([], s) :=
  field_append List.not_mem_nil s

theorem read_packet (hport : port < 65536) (addr : Addr4) :
    read false (s4Packet port addr) = some ⟨.address addr, port, []⟩ := by
  rw [← List.append_nil (s4Packet port addr), read, readPort_packet hport, Option.bind_some]
  dsimp only
  rw [readAddr, Option.bind_some]
  dsimp only
  rw [field_zero, Option.bind_some]
  dsimp only
  rw [if_neg (by simp), if_pos rfl]

theorem read_name (hport : port < 65536) (host : CString) :
    read true (s4Packet port (0, 0, 0, 1) ++ (host.bytes ++ [0])) =
      some ⟨.name host.bytes, port, []⟩ := by
  rw [read, readPort_packet hport, Option.bind_some]
  dsimp only
  rw [readAddr, Option.bind_some]
  dsimp only
  rw [field_zero, Option.bind_some]
  dsimp only
  rw [if_pos (by decide), field_append host.zero_notMem, Option.bind_some]
  exact if_pos rfl

/-- A session that has ended well: the proxy has granted one request, for the port and an
address that the host resolves to, or for the host by its name. -/
structure Served (conf : Conf) (resolves : CString → Addr4 → Prop) (host : CString) (port : Nat)
    (answer : List UInt8) (target : Socks4Target) (wire : List Message) : Prop where
  answers : answers wire = [answer]
  granted : 4 ≤ answer.length ∧ answer[1]? = some 90
  read : read (conf.proxytype = 4) (sentBytes wire) = some ⟨target, port, []⟩
  target : if conf.proxytype = 4 then target = .name host.bytes
    else ∃ addr, resolves host addr ∧ target = .address addr

end Socks4

end Proxy

namespace World

open Proxy

variable {conf : Conf} {O : Finset Fd} {es : List Event}

/-- **SOCKS5.**  When a function is called with a descriptor, the proxy has granted a request for
the host and the port. -/
theorem socks5_served (hO : ∀ fd ∈ O, 0 ≤ fd) (hadm : Along conf Admissible (init O) es)
    (hfunc : connectFunc conf = some .s5Canwrite) :
    ∀ w ∈ run conf (init O) es, ∀ a f s, (a, .called f s) ∈ w.ended → s ≠ -1 →
      ∃ host port method answer target, w.asked a = some (host, port) ∧
        Socks5.Served conf host (port % 65536).toNat method answer target (w.wire a) := by
  intro w hw a f s ha hs
  obtain ⟨host, port, hasked, hlen, hagreed⟩ := agreed_of_called' hO hadm w hw a f s ha hs
  have hport : unsignedShort port < 65536 := unsignedShort_lt port
  generalize w.wire a = wire at hagreed
  cases hagreed with
  | direct hnone => exact absurd (hfunc.symm.trans hnone) (Option.some_ne_none _)
  | @through g talk answer hg htalk hanswer =>
      have hcanwrite : g.canwrite = .s5Canwrite := Option.some.inj (hg.symm.trans hfunc)
      cases htalk with
      | http _ => cases hcanwrite
      | s4 _ _ => cases hcanwrite
      | s4a _ => cases hcanwrite
      | s5Greeting => exact hanswer.elim
      | s5Auth => exact hanswer.elim
      | @s5Connect method request hmethod hrequest =>
          refine ⟨host, port, method, answer, _, hasked, ?_, hmethod, hanswer,
            Socks5.read_sentBytes hlen hport hrequest, ?_⟩
          · rw [s5Login]
            split <;> rfl
          · split
            · exact .inr rfl
            · exact .inl rfl

theorem socks5_served_login : ∃ w ∈ run (proxiedConf 3) (init {0, 1, 2})
      [connectH, fine 1 [], fine 2 [5, 2], fine 3 [1, 0], fine 4 [5, 0, 0, 1, 0, 0, 0, 0, 0, 0]],
    ∃ host port method answer target, w.asked 0 = some (host, port) ∧
      Socks5.Served (proxiedConf 3) host (port % 65536).toNat method answer target (w.wire 0) := by
  have hended : ((run (proxiedConf 3) (init {0, 1, 2}) [connectH, fine 1 [], fine 2 [5, 2],
      fine 3 [1, 0], fine 4 [5, 0, 0, 1, 0, 0, 0, 0, 0, 0]]).map ended) =
        some [(0, .called 7 5)] := by decide
  obtain ⟨w, hw, hcalled⟩ := Option.map_eq_some_iff.mp hended
  exact ⟨w, hw, socks5_served (by decide)
    (along_fine [(1, []), (2, [5, 2]), (3, [1, 0]), (4, [5, 0, 0, 1, 0, 0, 0, 0, 0, 0])])
    (by decide) w hw 0 7 5 (by rw [hcalled]; exact List.mem_singleton_self _) (by decide)⟩

/-- **SOCKS4 and SOCKS4A.**  When a function is called with a descriptor, the proxy has granted
a request for the host and the port. -/
theorem socks4_served (hO : ∀ fd ∈ O, 0 ≤ fd) (resolves : CString → Addr4 → Prop)
    (hadm : Along conf (fun w e ↦ Admissible w e ∧ Answered (fun ans ↦
      ∀ host addr, ans.gethostbyname host = some addr → resolves host addr) e) (init O) es)
    (hfunc : connectFunc conf = some .s4Canwrite) :
    ∀ w ∈ run conf (init O) es, ∀ a f s, (a, .called f s) ∈ w.ended → s ≠ -1 →
      ∃ host port answer target, w.asked a = some (host, port) ∧
        Socks4.Served conf resolves host (port % 65536).toNat answer target (w.wire a) := by
  intro w hw a f s ha hs
  obtain ⟨host, port, hasked, -, hagreed⟩ := agreed_of_called hO resolves hadm w hw a f s ha hs
  have hport : unsignedShort port < 65536 := unsignedShort_lt port
  generalize w.wire a = wire at hagreed
  cases hagreed with
  | direct hnone => exact absurd (hfunc.symm.trans hnone) (Option.some_ne_none _)
  | @through g talk answer hg htalk hanswer =>
      have hcanwrite : g.canwrite = .s4Canwrite := Option.some.inj (hg.symm.trans hfunc)
      cases htalk with
      | http _ => cases hcanwrite
      | s5Greeting => cases hcanwrite
      | s5Auth => cases hcanwrite
      | s5Connect _ _ => cases hcanwrite
      | @s4 addr htype haddr =>
          refine ⟨host, port, answer, .address addr, hasked, rfl, hanswer, ?_, ?_⟩
          · rw [decide_eq_false htype]
            exact (congrArg (Socks4.read false) (by simp [sentBytes])).trans
              (Socks4.read_packet hport addr)
          · rw [if_neg htype]
            exact ⟨addr, haddr, rfl⟩
      | s4a htype =>
          refine ⟨host, port, answer, .name host.bytes, hasked, rfl, hanswer, ?_, ?_⟩
          · rw [decide_eq_true htype]
            exact (congrArg (Socks4.read true) (by simp [sentBytes])).trans
              (Socks4.read_name hport host)
          · rw [if_pos htype]

/-- The descriptor can be written to; the proxy is sent 9 bytes and then the host `h`. -/
def writable : Event :=
  .ready 1 ⟨true, fun _ ↦ .noSocket, true, fun _ ↦ none, fun i ↦ if i = 0 then 9 else 2, [], 0⟩

theorem socks4_served_name : ∃ w ∈ run (proxiedConf 4) (init {0, 1, 2})
      [connectH, writable, fine 2 [0, 90, 0, 0, 0, 0, 0, 0]],
    ∃ host port answer target, w.asked 0 = some (host, port) ∧
      Socks4.Served (proxiedConf 4) (fun _ _ ↦ False) host (port % 65536).toNat answer target
        (w.wire 0) := by
  have hended : ((run (proxiedConf 4) (init {0, 1, 2})
      [connectH, writable, fine 2 [0, 90, 0, 0, 0, 0, 0, 0]]).map ended) =
        some [(0, .called 7 5)] := by decide
  obtain ⟨w, hw, hcalled⟩ := Option.map_eq_some_iff.mp hended
  refine ⟨w, hw, socks4_served (by decide) _ (along_connectH ⟨admissible_connectH, trivial⟩ ?_)
    (by decide) w hw 0 7 5 (by rw [hcalled]; exact List.mem_singleton_self _) (by decide)⟩
  simp only [List.forall_mem_cons]
  exact ⟨fun w ↦ ⟨fresh_noSocket, fun _ _ h ↦ nomatch h⟩,
    fun w ↦ ⟨admissible_fine _ _, fun _ _ h ↦ nomatch h⟩, List.forall_mem_nil _⟩

end World

end TelepathyFacebook
