import TelepathyFacebook.ProxyFate

/-!
# What is said to a proxy before a function is called

`rules_talk` follows a connection from its start: while it waits for an answer of the proxy,
the bytes on it are those that `Spoken` lists, and when its function is called with a
descriptor the proxy has agreed.  `Rules.run` carries this over to the runs of the code.
-/

namespace TelepathyFacebook

namespace Proxy

variable {conf : Conf} {resolves : CString → Addr4 → Prop} {host : CString} {port : Nat}

/-- The first function of the handshake to which a function that waits belongs. -/
def ReadFunc.canwrite : ReadFunc → ProxyFunc
  | .httpCanread => .httpCanwrite
  | .s4Canread => .s4Canwrite
  | .s5Canread | .s5Readauth | .s5CanreadAgain => .s5Canwrite

/-- The messages of `http_canwrite`. -/
def httpMessages (conf : Conf) (host : CString) (port : Nat) : List (List UInt8) :=
  [gSnprintf 384 (connectText host port)] ++
    (if conf.proxyuser.bytes = [] then [] else [gSnprintf 384 (authorizationText conf)]) ++
    [gSnprintf 384 (ascii "\r\n")]

/-- The offer of a SOCKS5 method, and the method that the proxy chose. -/
def s5Offer (conf : Conf) (method : UInt8) : List Message :=
  [.sent (s5Greeting conf), .received [5, method]]

/-- The user and the password for SOCKS5, where the proxy asked for them. -/
def s5Login (conf : Conf) (method : UInt8) : List Message :=
  if method = 2 then [.sent (s5Auth conf), .received [1, 0]] else []

/-- What was said when a function waits for an answer.  Messages that `http_canwrite` sends may
be cut short; that of `s5_sendconnect` may be missing. -/
inductive Spoken (conf : Conf) (resolves : CString → Addr4 → Prop) (host : CString) (port : Nat) :
    ReadFunc → List Message → Prop where
  | http {parts : List (List UInt8)}
      (hparts : List.Forall₂ (· <+: ·) parts (httpMessages conf host port)) :
      Spoken conf resolves host port .httpCanread (parts.map .sent)
  | s4 {addr : Addr4} (htype : conf.proxytype ≠ 4) (haddr : resolves host addr) :
      Spoken conf resolves host port .s4Canread [.sent (s4Packet port addr)]
  | s4a (htype : conf.proxytype = 4) :
      Spoken conf resolves host port .s4Canread
        [.sent (s4Packet port (0, 0, 0, 1)), .sent (host.bytes ++ [0])]
  | s5Greeting : Spoken conf resolves host port .s5Canread [.sent (s5Greeting conf)]
  | s5Auth : Spoken conf resolves host port .s5Readauth
      (s5Offer conf 2 ++ [.sent (s5Auth conf)])
  | s5Connect {method : UInt8} {request : List UInt8} (hmethod : method ≠ 0xff)
      (hrequest : request = s5Connect host port ∨ request = []) :
      Spoken conf resolves host port .s5CanreadAgain
        (s5Offer conf method ++ s5Login conf method ++ [.sent request])

/-- The answers of the proxy to which `phb_connected` is called. -/
def Accepted : ReadFunc → List UInt8 → Prop
  | .httpCanread, answer =>
      ∃ b, httpGoodstring <+: answer ++ [b] ∨ httpGoodstring2 <+: answer ++ [b]
  | .s4Canread, answer => 4 ≤ answer.length ∧ answer[1]? = some 90
  | .s5CanreadAgain, answer =>
      10 ≤ answer.length ∧ answer[0]? = some 5 ∧ answer[1]? = some 0
  | .s5Canread, _ | .s5Readauth, _ => False

/-- What was said on a connection whose function is called with a descriptor. -/
inductive Agreed (conf : Conf) (resolves : CString → Addr4 → Prop) (host : CString) (port : Nat) :
    List Message → Prop where
  | direct (hfunc : World.connectFunc conf = none) : Agreed conf resolves host port []
  | through {f : ReadFunc} {talk : List Message} {answer : List UInt8}
      (hfunc : World.connectFunc conf = some f.canwrite)
      (htalk : Spoken conf resolves host port f talk) (hanswer : Accepted f answer) :
      Agreed conf resolves host port (talk ++ [.received answer])

/-- What was said on a connection that is under way. -/
def Talks (conf : Conf) (resolves : CString → Addr4 → Prop) (host : CString) (port : Int)
    (c : Conn) : Prop :=
  match c.stage with
  | .connecting via _ => via = viaProxy conf host port ∧ c.wire = []
  | .handshake host' port' f => host' = host ∧ port' = World.unsignedShort port ∧
      World.connectFunc conf = some f.canwrite ∧ Spoken conf resolves host port' f c.wire

/-! ## Messages that are written -/

variable {write : Nat → Int} {accept : Int → Nat → Bool}

/-- A write that was not short has written everything. -/
theorem take_of_le {n : Int} {m : List UInt8} (h : (m.length : Int) ≤ n) :
    m.take n.toNat = m := List.take_of_length_le (by omega)

/-- Whatever `send` returns, a message is a prefix of what it was given. -/
theorem written_prefix (i : Nat) (messages : List (List UInt8))
    (h : (written write accept i messages).2) :
    ∃ parts, (written write accept i messages).1 = parts.map .sent ∧
      List.Forall₂ (· <+: ·) parts messages := by
  induction messages generalizing i with
  | nil => exact ⟨[], rfl, .nil⟩
  | cons m ms ih =>
      rw [written] at h ⊢
      split at h
      · next hacc =>
          obtain ⟨parts, hparts, hprefix⟩ := ih (i + 1) h
          rw [if_pos hacc]
          exact ⟨m.take (write i).toNat :: parts, congrArg _ hparts,
            .cons (List.take_prefix _ _) hprefix⟩
      · cases h

/-- Messages none of which may be short are written as they are. -/
theorem written_full (hacc : ∀ n len, accept n len → (len : Int) ≤ n) (i : Nat)
    (messages : List (List UInt8)) (h : (written write accept i messages).2) :
    (written write accept i messages).1 = messages.map .sent := by
  induction messages generalizing i with
  | nil => rfl
  | cons m ms ih =>
      rw [written] at h ⊢
      split at h
      · next ha =>
          rw [if_pos ha, take_of_le (hacc _ _ ha), ih (i + 1) h]
          rfl
      · cases h

theorem le_of_not_shortSigned {n : Int} {len : Nat} (h : ¬ shortSigned n len) :
    (len : Int) ≤ n := by
  simpa [shortSigned] using h

/-- The comparison of `s5_sendconnect` misses a write that has failed. -/
theorem take_of_not_shortUnsigned {n : Int} {m : List UInt8}
    (h : ¬ shortUnsigned n m.length) : m.take n.toNat = m ∨ m.take n.toNat = [] := by
  by_cases hn : (m.length : Int) ≤ n
  · exact .inl (take_of_le hn)
  · right
    have hneg : n < 0 := by
      simp only [shortUnsigned, decide_eq_true_eq] at h
      omega
    rw [Int.toNat_of_nonpos hneg.le, List.take_zero]

/-! ## One connection -/

variable {c : Conn} {asked : Int} {r : Reaction}

/-- What is said when a function is called. -/
def Spoke (conf : Conf) (resolves : CString → Addr4 → Prop) (host : CString) (port : Int)
    (source : Fd) (wire : List Message) : Prop :=
  source ≠ -1 → Agreed conf resolves host (World.unsignedShort port) wire

/-- What a function of the handshake must do to keep to the protocol. -/
theorem after_react {write : Nat → Int}
    (hconnected : r = .connected → Agreed conf resolves host (World.unsignedShort asked) c.wire)
    (hsend : ∀ messages accept next, r = .send messages accept next →
      (written write accept 0 messages).2 → World.connectFunc conf = some next.canwrite ∧
        Spoken conf resolves host (World.unsignedShort asked) next
          (c.wire ++ (written write accept 0 messages).1)) :
    (c.react host (World.unsignedShort asked) write r).After (Talks conf resolves host asked)
      (Spoke conf resolves host asked) := by
  cases r with
  | fail => exact fun h ↦ absurd rfl h
  | connected => exact fun _ ↦ hconnected rfl
  | send messages accept next =>
      rw [Conn.react]
      split
      · next hw => exact ⟨rfl, rfl, hsend messages accept next rfl hw⟩
      · exact fun h ↦ absurd rfl h

/-- `s5_sendconnect`, after what was said up to then. -/
theorem after_s5Sendconnect {write : Nat → Int} {method : UInt8} (hmethod : method ≠ 0xff)
    (hfunc : World.connectFunc conf = some .s5Canwrite)
    (hwire : c.wire = s5Offer conf method ++ s5Login conf method) :
    (c.react host (World.unsignedShort asked) write
      (s5Sendconnect host (World.unsignedShort asked))).After (Talks conf resolves host asked)
        (Spoke conf resolves host asked) := by
  refine after_react (fun h ↦ Reaction.noConfusion h) fun messages accept next h hw ↦ ?_
  obtain ⟨rfl, rfl, rfl⟩ := Reaction.send.inj h
  refine ⟨hfunc, ?_⟩
  rw [written] at hw ⊢
  split at hw
  · next hacc =>
      rw [if_pos hacc, hwire]
      exact .s5Connect hmethod (take_of_not_shortUnsigned (of_decide_eq_true hacc))
  · cases hw

/-- Two bytes that were read. -/
theorem eq_pair {l : List UInt8} {a b : UInt8} (hlen : l.length ≤ 2) (ha : l[0]? = some a)
    (hb : l[1]? = some b) : l = [a, b] := by
  match l, hlen, ha, hb with
  | [x, y], _, ha, hb =>
      obtain rfl := Option.some.inj ha
      obtain rfl := Option.some.inj hb
      rfl
  | [_], _, _, hb => cases hb
  | [], _, ha, _ => cases ha

/-! ## Answers -/

theorem accepted_of_httpCanread {stream : List UInt8} {junk : UInt8}
    (h : httpCanread stream junk = .connected) :
    Accepted .httpCanread (readHeader 8191 0 stream) := by
  rw [httpCanread] at h
  split at h
  · next hgood =>
      rw [inputline] at hgood
      split at hgood
      · have hcut : ∀ {g : List UInt8}, 0 ∉ g →
            g <+: readHeader 8191 0 stream ++ [junk] ++ [0] →
              g <+: readHeader 8191 0 stream ++ [junk] := by
          intro g hg hprefix
          rcases List.prefix_concat_iff.mp hprefix with rfl | hprefix
          · exact absurd (List.mem_append_right _ (List.mem_singleton_self 0)) hg
          · exact hprefix
        exact ⟨junk, hgood.imp (hcut (by decide)) (hcut (by decide))⟩
      · rw [List.append_nil] at hgood
        exact ⟨0, hgood⟩
  · cases h

theorem httpCanread_ne_send {stream : List UInt8} {junk : UInt8} {messages : List (List UInt8)}
    {accept : Int → Nat → Bool} {next : ReadFunc} :
    httpCanread stream junk ≠ .send messages accept next := by
  rw [httpCanread]
  split <;> exact fun h ↦ Reaction.noConfusion h

theorem s4Canread_cases (packet : List UInt8) :
    s4Canread packet = .fail ∨ s4Canread packet = .connected ∧ Accepted .s4Canread packet := by
  rw [s4Canread]
  split
  · next h => exact .inr ⟨rfl, h⟩
  · exact .inl rfl

theorem s5CanreadAgain_cases (buf : List UInt8) :
    s5CanreadAgain buf = .fail ∨
      s5CanreadAgain buf = .connected ∧ Accepted .s5CanreadAgain buf := by
  rw [s5CanreadAgain]
  split
  · exact .inl rfl
  · next hlen =>
      split
      · exact .inl rfl
      · next hbytes =>
          obtain ⟨h0, h1⟩ := not_or.mp hbytes
          exact .inr ⟨rfl, not_lt.mp hlen, not_not.mp h0, not_not.mp h1⟩

theorem s5Readauth_cases (host : CString) (port : Nat) {buf : List UInt8} (hlen : buf.length ≤ 2) :
    s5Readauth host port buf = .fail ∨
      s5Readauth host port buf = s5Sendconnect host port ∧ buf = [1, 0] := by
  rw [s5Readauth]
  split
  · exact .inl rfl
  · split
    · exact .inl rfl
    · next hbytes =>
        obtain ⟨h0, h1⟩ := not_or.mp hbytes
        exact .inr ⟨rfl, eq_pair hlen (not_not.mp h0) (not_not.mp h1)⟩

theorem s5Canread_cases (conf : Conf) (host : CString) (port : Nat) {buf : List UInt8}
    (hlen : buf.length ≤ 2) :
    s5Canread conf host port buf = .fail ∨
      ∃ method, buf = [5, method] ∧ method ≠ 0xff ∧ s5Canread conf host port buf =
        if method = 2 then .send [s5Auth conf] (fun n len ↦ ¬ shortSigned n len) .s5Readauth
        else s5Sendconnect host port := by
  rw [s5Canread]
  split
  · exact .inl rfl
  · next hshort =>
      split
      · exact .inl rfl
      · next hbytes =>
          obtain ⟨h0, h1⟩ := not_or.mp hbytes
          have hlt : 1 < buf.length := by omega
          have hmethod : buf[1]? = some buf[1] := List.getElem?_eq_getElem hlt
          refine .inr ⟨buf[1], eq_pair hlen (not_not.mp h0) hmethod, ?_, ?_⟩
          · rintro hff
            exact h1 (hmethod.trans (congrArg some hff))
          · simp only [hmethod, Option.some.injEq]

theorem after_canread {stream : List UInt8} {junk : UInt8} {write : Nat → Int} {f : ReadFunc}
    {talk : List Message} (hfunc : World.connectFunc conf = some f.canwrite)
    (htalk : Spoken conf resolves host (World.unsignedShort asked) f talk)
    (hwire : c.wire = talk ++ [.received (readOf f stream)]) :
    (c.react host (World.unsignedShort asked) write
      (canread conf host (World.unsignedShort asked) stream junk f)).After
        (Talks conf resolves host asked) (Spoke conf resolves host asked) := by
  have hagreed : Accepted f (readOf f stream) →
      Agreed conf resolves host (World.unsignedShort asked) c.wire := by
    intro hanswer
    rw [hwire]
    exact .through hfunc htalk hanswer
  have hfail : (c.react host (World.unsignedShort asked) write .fail).After
      (Talks conf resolves host asked) (Spoke conf resolves host asked) := fun h ↦ absurd rfl h
  have hconnected : Accepted f (readOf f stream) →
      (c.react host (World.unsignedShort asked) write .connected).After
        (Talks conf resolves host asked) (Spoke conf resolves host asked) :=
    fun hanswer _ ↦ hagreed hanswer
  have htake : (stream.take 2).length ≤ 2 := List.length_take_le ..
  cases f with
  | httpCanread =>
      exact after_react (fun h ↦ hagreed (accepted_of_httpCanread h))
        fun _ _ _ h ↦ absurd h httpCanread_ne_send
  | s4Canread =>
      rcases s4Canread_cases (stream.take 9) with h | ⟨h, hanswer⟩
      · rw [canread, h]
        exact hfail
      · rw [canread, h]
        exact hconnected hanswer
  | s5CanreadAgain =>
      rcases s5CanreadAgain_cases (stream.take 10) with h | ⟨h, hanswer⟩
      · rw [canread, h]
        exact hfail
      · rw [canread, h]
        exact hconnected hanswer
  | s5Readauth =>
      rcases s5Readauth_cases host (World.unsignedShort asked) htake with h | ⟨h, hbuf⟩
      · rw [canread, h]
        exact hfail
      · rw [canread, h]
        cases htalk
        have htwo : (2 : UInt8) ≠ 0xff := by decide
        refine after_s5Sendconnect htwo hfunc (hwire.trans ?_)
        rw [readOf, hbuf, s5Login, if_pos rfl, List.append_assoc]
        rfl
  | s5Canread =>
      rcases s5Canread_cases conf host (World.unsignedShort asked) htake with
        h | ⟨method, hbuf, hmethod, h⟩
      · rw [canread, h]
        exact hfail
      · rw [canread, h]
        cases htalk
        have hoffer : c.wire = s5Offer conf method := by
          rw [hwire, readOf, hbuf]
          rfl
        split
        · next htwo =>
            refine after_react (fun h ↦ Reaction.noConfusion h) fun messages accept next h hw ↦ ?_
            obtain ⟨rfl, rfl, rfl⟩ := Reaction.send.inj h
            have hfull : ∀ n len, decide (¬ shortSigned n len) = true → (len : Int) ≤ n :=
              fun n len h ↦ le_of_not_shortSigned (of_decide_eq_true h)
            rw [written_full hfull 0 _ hw, hoffer, htwo]
            exact ⟨hfunc, .s5Auth⟩
        · next htwo =>
            refine after_s5Sendconnect hmethod hfunc ?_
            rw [hoffer, s5Login, if_neg htwo, List.append_nil]

theorem after_canwrite {ans : Answers} {f : ProxyFunc}
    (hK : ∀ host addr, ans.gethostbyname host = some addr → resolves host addr)
    (hfunc : World.connectFunc conf = some f) (hwire : c.wire = []) :
    (c.react host (World.unsignedShort asked) ans.write
      (canwrite conf ans.gethostbyname host (World.unsignedShort asked) f)).After
        (Talks conf resolves host asked) (Spoke conf resolves host asked) := by
  have hsigned : ∀ n len, decide (¬ shortSigned n len) = true → (len : Int) ≤ n :=
    fun n len h ↦ le_of_not_shortSigned (of_decide_eq_true h)
  have hexact : ∀ (n : Int) (len : Nat), decide (n = len) = true → (len : Int) ≤ n :=
    fun n len h ↦ (of_decide_eq_true h).ge
  cases f with
  | httpCanwrite =>
      refine after_react (fun h ↦ Reaction.noConfusion h) fun messages accept next h hw ↦ ?_
      obtain ⟨rfl, rfl, rfl⟩ := Reaction.send.inj h
      obtain ⟨parts, hparts, hprefix⟩ := written_prefix 0 _ hw
      rw [hparts, hwire]
      exact ⟨hfunc, .http hprefix⟩
  | s5Canwrite =>
      refine after_react (fun h ↦ Reaction.noConfusion h) fun messages accept next h hw ↦ ?_
      obtain ⟨rfl, rfl, rfl⟩ := Reaction.send.inj h
      rw [written_full hsigned 0 _ hw, hwire]
      exact ⟨hfunc, .s5Greeting⟩
  | s4Canwrite =>
      rw [canwrite, s4Canwrite]
      split
      · next htype =>
          refine after_react (fun h ↦ Reaction.noConfusion h) fun messages accept next h hw ↦ ?_
          obtain ⟨rfl, rfl, rfl⟩ := Reaction.send.inj h
          rw [written_full hexact 0 _ hw, hwire]
          exact ⟨hfunc, .s4a htype⟩
      · next htype =>
          split
          · exact fun h ↦ absurd rfl h
          · next addr haddr =>
              refine after_react (fun h ↦ Reaction.noConfusion h)
                fun messages accept next h hw ↦ ?_
              obtain ⟨rfl, rfl, rfl⟩ := Reaction.send.inj h
              rw [written_full hexact 0 _ hw, hwire]
              exact ⟨hfunc, .s4 htype (hK host addr haddr)⟩

/-- **One connection.**  What is said on it is what the protocol of the proxy asks for, and its
function is called with a descriptor when the proxy has agreed. -/
theorem rules_talk (conf : Conf) (resolves : CString → Addr4 → Prop) :
    Rules conf (fun ans ↦ ∀ host addr, ans.gethostbyname host = some addr → resolves host addr)
      (Talks conf resolves) (Spoke conf resolves) where
  dial _ _ hdial := by
    obtain ⟨⟨fd, left⟩, -, rfl⟩ := Option.map_eq_some_iff.mp hdial
    exact ⟨rfl, rfl⟩
  ready {host asked c ans} hK hc := by
    obtain ⟨func, fd, stage, wire⟩ := c
    cases stage with
    | handshake host' port' f =>
        obtain ⟨rfl, rfl, hfunc, htalk⟩ := hc
        exact after_canread hfunc htalk rfl
    | connecting via l =>
        obtain ⟨hvia, hwire⟩ := hc
        dsimp only at hvia hwire
        rw [Conn.ready]
        dsimp only
        split
        · rw [hvia, viaProxy]
          cases hfunc : World.connectFunc conf with
          | none =>
              intro _
              rw [hwire]
              exact .direct hfunc
          | some f =>
              rw [Option.map_some, Conn.resolved]
              split
              · exact after_canwrite hK hfunc hwire
              · exact fun h ↦ absurd rfl h
        · rcases l with _ | ⟨addr, _ | ⟨next, rest⟩⟩
          · trivial
          · exact fun h ↦ absurd rfl h
          · rw [Conn.retry]
            split
            · exact ⟨hvia, hwire⟩
            · exact ⟨hvia, hwire⟩

/-- The bytes that the proxy gets. -/
def sentBytes (wire : List Message) : List UInt8 :=
  wire.flatMap fun
    | .sent bytes => bytes
    | .received _ => []

/-- The bytes that the proxy sends, by the calls of `read`. -/
def answers (wire : List Message) : List (List UInt8) :=
  wire.filterMap fun
    | .sent _ => none
    | .received bytes => some bytes

end Proxy

namespace World

open Proxy Runs

variable {conf : Conf} {O : Finset Fd} {es : List Event}

theorem unsignedShort_lt (port : Int) : unsignedShort port < 65536 := by
  have hlt : port % 65536 < 65536 := Int.emod_lt_of_pos port (by decide)
  have hnonneg : 0 ≤ port % 65536 := Int.emod_nonneg port (by decide)
  rw [unsignedShort]
  omega

/-- The host is at most as long as `proxy_connect` allows. -/
theorem rules_length (conf : Conf) (K : Answers → Prop) :
    Rules conf K (fun host _ _ ↦ host.bytes.length ≤ 128)
      (fun host _ _ _ ↦ host.bytes.length ≤ 128) where
  dial _ hlen _ := hlen
  ready {host asked c ans} _ hlen := by
    cases c.ready conf ans with
    | crash => trivial
    | _ => exact hlen

/-- What was said when a function was called with a descriptor, in every run. -/
theorem agreed_of_called (hO : ∀ fd ∈ O, 0 ≤ fd) (resolves : CString → Addr4 → Prop)
    (hadm : Along conf (fun w e ↦ Admissible w e ∧ Answered (fun ans ↦
      ∀ host addr, ans.gethostbyname host = some addr → resolves host addr) e) (init O) es) :
    ∀ w ∈ run conf (init O) es, ∀ a f s, (a, .called f s) ∈ w.ended → s ≠ -1 →
      ∃ host port, w.asked a = some (host, port) ∧ host.bytes.length ≤ 128 ∧
        Agreed conf resolves host (unsignedShort port) (w.wire a) := by
  intro w hw a f s ha hs
  obtain ⟨host, port, hasked, hspoke⟩ := Rules.run (rules_talk conf resolves) hO hadm w hw a f s
    ha
  obtain ⟨host', port', hasked', hlen⟩ := Rules.run (rules_length conf _) hO hadm w hw a f s ha
  obtain ⟨rfl, rfl⟩ := Prod.mk.inj (Option.some.inj (hasked.symm.trans hasked'))
  exact ⟨host, port, hasked, hlen, hspoke hs⟩

/-- The same where nothing is known of the resolver. -/
theorem agreed_of_called' (hO : ∀ fd ∈ O, 0 ≤ fd) (hadm : Along conf Admissible (init O) es) :
    ∀ w ∈ run conf (init O) es, ∀ a f s, (a, .called f s) ∈ w.ended → s ≠ -1 →
      ∃ host port, w.asked a = some (host, port) ∧ host.bytes.length ≤ 128 ∧
        Agreed conf (fun _ _ ↦ True) host (unsignedShort port) (w.wire a) := by
  refine agreed_of_called hO _ (Steps.mono (fun t e hok w hw ↦ ⟨hok w hw, ?_⟩) hadm)
  cases e with
  | ready tag ans => exact fun _ _ _ ↦ trivial
  | _ => trivial

end World

end TelepathyFacebook
