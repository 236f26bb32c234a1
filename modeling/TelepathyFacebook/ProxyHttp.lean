import TelepathyFacebook.ProxyTalk
import TelepathyFacebook.Lib.Fields

/-!
# What an HTTP proxy understands

A reader of the request that comes in at an HTTP proxy: the host and the port that it is to
connect to, and the user and the password.

* `HttpConnect.read_eq_iff`: it reads what was meant exactly if the host has no blank and no
  line end and the user no colon.
* `http_served`: in every run of the code a function is called with a descriptor only where the
  proxy has agreed.
-/

namespace TelepathyFacebook

open Fields

namespace Proxy

variable {conf : Conf} {host : CString} {port : Nat}

/-! ## The buffer -/

/-- A text that the buffer holds is not cut. -/
theorem gSnprintf_of_lt {size : Nat} {text : List UInt8} (h : text.length < size) :
    gSnprintf size text = text := List.take_of_length_le (by omega)

theorem length_printNat (hport : port < 65536) : (printNat port).length ≤ 5 := by
  have hdigits : (Nat.toDigits 10 port).length ≤ 5 :=
    (Nat.length_toDigits_le_iff (by decide) (by decide)).mpr (by omega)
  simpa [printNat, ascii] using hdigits

theorem length_connectText (hlen : host.bytes.length ≤ 128) (hport : port < 65536) :
    (connectText host port).length < 384 := by
  have hdigits := length_printNat hport
  have h1 : (ascii "CONNECT ").length = 8 := by decide
  have h2 : (ascii ":").length = 1 := by decide
  have h3 : (ascii " HTTP/1.1\r\nHost: ").length = 17 := by decide
  have h4 : (ascii "\r\n").length = 2 := by decide
  simp only [connectText, List.length_append, h1, h2, h3, h4]
  omega

theorem length_authorizationText (conf : Conf) : (authorizationText conf).length < 384 := by
  have huser := conf.length_proxyuser
  have hpass := conf.length_proxypass
  have h1 : (ascii "Proxy-Authorization: Basic ").length = 27 := by decide
  have h2 : (ascii ":").length = 1 := by decide
  have h3 : (ascii "\r\n").length = 2 := by decide
  simp only [authorizationText, tobase64, Base64.length_encode, List.length_append, h1, h2, h3]
  omega

/-- The messages as they are meant, in full. -/
def httpTexts (conf : Conf) (host : CString) (port : Nat) : List (List UInt8) :=
  [connectText host port] ++
    (if conf.proxyuser.bytes = [] then [] else [authorizationText conf]) ++ [ascii "\r\n"]

/-- None of the messages is cut by the buffer of 384 bytes. -/
theorem httpMessages_eq (hlen : host.bytes.length ≤ 128) (hport : port < 65536) :
    httpMessages conf host port = httpTexts conf host port := by
  rw [httpTexts, httpMessages, gSnprintf_of_lt (length_connectText hlen hport),
    gSnprintf_of_lt (length_authorizationText conf), gSnprintf_of_lt (by decide)]

/-! ## The request as the proxy sees it -/

/-- A request to connect. -/
structure HttpConnect where
  host : List UInt8
  port : Nat
  login : Option (List UInt8 × List UInt8)
deriving DecidableEq

namespace HttpConnect

/-- A line without its end. -/
def readLine (s : List UInt8) : Option (List UInt8 × List UInt8) :=
  (field 10 s).map fun (l, s) ↦ (if l.getLast? = some 13 then l.dropLast else l, s)

/-- A decimal number. -/
def readNat (s : List UInt8) : Option Nat :=
  match Decimal.whole (s.map fun b ↦ Char.ofNat b.toNat) with
  | some (false, n) => some n
  | _ => none

/-- The request line: the host goes up to the last colon. -/
def readTarget (line : List UInt8) : Option (List UInt8 × Nat) :=
  (field 32 line).bind fun (method, rest) ↦
    if method = ascii "CONNECT" then
      (field 32 rest).bind fun (target, _) ↦
        (lastField 58 target).bind fun (host, digits) ↦ (readNat digits).map (host, ·)
    else none

/-- The lines up to an empty one. -/
def readHeaders : Nat → List UInt8 → Option (List (List UInt8))
  | 0, _ => none
  | fuel + 1, s =>
      (readLine s).bind fun (l, s) ↦ if l = [] then some [] else (readHeaders fuel s).map (l :: ·)

def basic : List UInt8 := ascii "Proxy-Authorization: Basic "

/-- The user, up to the first colon, and the password. -/
def readLogin (line : List UInt8) : Option (List UInt8 × List UInt8) :=
  if basic <+: line then (Base64.decode (line.drop basic.length)).bind (field 58) else none

def read (s : List UInt8) : Option HttpConnect :=
  (readLine s).bind fun (line, s) ↦ (readTarget line).bind fun (host, port) ↦
    (readHeaders s.length s).map fun headers ↦ ⟨host, port, headers.findSome? readLogin⟩

/-! ## Round trip -/

theorem readLine_append {l : List UInt8} (hl : 10 ∉ l) (s : List UInt8) :
    readLine (l ++ 13 :: 10 :: s) = some (l, s) := by
  have hraw : 10 ∉ l ++ [13] := by simpa using hl
  have hsplit : l ++ 13 :: 10 :: s = (l ++ [13]) ++ 10 :: s := by simp
  rw [hsplit, readLine, field_append hraw, Option.map_some]
  simp

theorem isDigit_range {c : Char} (h : c.isDigit) : 48 ≤ c.toNat ∧ c.toNat ≤ 57 := by
  rw [Char.isDigit, Bool.and_eq_true_iff] at h
  exact ⟨of_decide_eq_true h.1, of_decide_eq_true h.2⟩

theorem mem_printNat {n : Nat} {b : UInt8} (h : b ∈ printNat n) : 48 ≤ b.toNat ∧ b.toNat ≤ 57 := by
  obtain ⟨c, hc, rfl⟩ := List.mem_map.mp h
  have hall := List.all_eq_true.mp (Decimal.all_isDigit_toDigits n)
  have hrange := isDigit_range (hall c (by simpa using hc))
  rwa [UInt8.toNat_ofNat_of_lt' (by show _ < 256; omega)]

theorem notMem_printNat {n : Nat} {b : UInt8} (h : ¬ (48 ≤ b.toNat ∧ b.toNat ≤ 57)) :
    b ∉ printNat n := fun hb ↦ h (mem_printNat hb)

theorem readNat_printNat (n : Nat) : readNat (printNat n) = some n := by
  have hdigits : (printNat n).map (fun b ↦ Char.ofNat b.toNat) = Nat.toDigits 10 n := by
    have hsame : ∀ c ∈ Nat.toDigits 10 n, Char.ofNat (UInt8.ofNat c.toNat).toNat = c := by
      intro c hc
      have hrange := isDigit_range (List.all_eq_true.mp (Decimal.all_isDigit_toDigits n) c hc)
      rw [UInt8.toNat_ofNat_of_lt' (by show _ < 256; omega), Char.ofNat_toNat]
    have hprint : printNat n = (Nat.toDigits 10 n).map fun c ↦ UInt8.ofNat c.toNat := by
      simp [printNat, ascii]
    rw [hprint, List.map_map]
    exact (List.map_congr_left hsame).trans (List.map_id _)
  have hall := Decimal.all_isDigit_toDigits n
  rw [readNat, hdigits, Decimal.whole, Decimal.sign_of_all hall]
  dsimp only
  rw [if_pos hall, Decimal.digits_toDigits, Option.map_some]

/-- The host and the port as they stand in the request. -/
def authority (host : CString) (port : Nat) : List UInt8 :=
  host.bytes ++ 58 :: printNat port

def requestLine (host : CString) (port : Nat) : List UInt8 :=
  ascii "CONNECT" ++ 32 :: (authority host port ++ 32 :: ascii "HTTP/1.1")

def hostLine (host : CString) (port : Nat) : List UInt8 := ascii "Host: " ++ authority host port

def loginLine (conf : Conf) : List UInt8 :=
  basic ++ Base64.encode (conf.proxyuser.bytes ++ 58 :: conf.proxypass.bytes)

theorem connectText_eq (host : CString) (port : Nat) :
    connectText host port =
      requestLine host port ++ 13 :: 10 :: (hostLine host port ++ 13 :: 10 :: []) := by
  have h1 : ascii "CONNECT " = ascii "CONNECT" ++ [32] := by decide
  have h2 : ascii ":" = [58] := by decide
  have h3 : ascii " HTTP/1.1\r\nHost: " = 32 :: ascii "HTTP/1.1" ++ 13 :: 10 :: ascii "Host: " := by
    decide
  have h4 : ascii "\r\n" = [13, 10] := by decide
  rw [connectText, h1, h2, h3, h4]
  simp [requestLine, hostLine, authority]

theorem authorizationText_eq (conf : Conf) :
    authorizationText conf = loginLine conf ++ 13 :: 10 :: [] := by
  have h1 : ascii ":" = [58] := by decide
  have h2 : ascii "\r\n" = [13, 10] := by decide
  rw [authorizationText, h1, h2, tobase64]
  simp [loginLine, basic]

theorem notMem_authority {b : UInt8} (h58 : b ≠ 58) (hrange : ¬ (48 ≤ b.toNat ∧ b.toNat ≤ 57)) :
    b ∉ authority host port ↔ b ∉ host.bytes := by
  rw [authority, List.mem_append, List.mem_cons]
  simp [h58, notMem_printNat hrange]

theorem readTarget_requestLine (hblank : 32 ∉ host.bytes) :
    readTarget (requestLine host port) = some (host.bytes, port) := by
  have hauthority : 32 ∉ authority host port :=
    (notMem_authority (by decide) (by decide)).mpr hblank
  have hcolon : 58 ∉ printNat port := notMem_printNat (by decide)
  rw [readTarget, requestLine, field_append (by decide), Option.bind_some]
  dsimp only
  rw [if_pos rfl, field_append hauthority, Option.bind_some]
  dsimp only
  rw [authority, lastField_append hcolon, Option.bind_some]
  dsimp only
  rw [readNat_printNat, Option.map_some]

theorem readHeaders_cons {fuel : Nat} {l : List UInt8} (hl : 10 ∉ l) (hne : l ≠ [])
    (s : List UInt8) :
    readHeaders (fuel + 1) (l ++ 13 :: 10 :: s) = (readHeaders fuel s).map (l :: ·) := by
  rw [readHeaders, readLine_append hl, Option.bind_some]
  exact if_neg hne

theorem readHeaders_end (fuel : Nat) : readHeaders (fuel + 1) [13, 10] = some [] := by
  rw [readHeaders]
  rfl

/-- The headers behind the request line. -/
def headers (conf : Conf) (host : CString) (port : Nat) : List (List UInt8) :=
  hostLine host port :: if conf.proxyuser.bytes = [] then [] else [loginLine conf]

theorem notMem_hostLine (hline : 10 ∉ host.bytes) : 10 ∉ hostLine host port := by
  have hauthority : 10 ∉ authority host port :=
    (notMem_authority (by decide) (by decide)).mpr hline
  have hname : 10 ∉ ascii "Host: " := by decide
  rw [hostLine, List.mem_append]
  exact not_or.mpr ⟨hname, hauthority⟩

theorem notMem_loginLine (conf : Conf) : 10 ∉ loginLine conf := by
  have hname : 10 ∉ basic := by decide
  rw [loginLine, List.mem_append]
  refine not_or.mpr ⟨hname, fun h ↦ ?_⟩
  exact absurd (Base64.isLetter_of_mem_encode 10 h).lt (by decide)

theorem readLogin_hostLine : readLogin (hostLine host port) = none := by
  have hbasic : basic = 80 :: basic.tail := by decide
  have hname : hostLine host port = 72 :: (ascii "ost: " ++ authority host port) := rfl
  refine if_neg fun h ↦ ?_
  rw [hbasic, hname, List.cons_prefix_cons] at h
  exact absurd h.1 (by decide)

theorem readLogin_loginLine (conf : Conf) :
    readLogin (loginLine conf) = field 58 (conf.proxyuser.bytes ++ 58 :: conf.proxypass.bytes) := by
  rw [readLogin, loginLine, if_pos (List.prefix_append _ _), List.drop_left, Base64.decode_encode,
    Option.bind_some]

/-- The bytes of the whole request. -/
theorem flatten_httpMessages (hlen : host.bytes.length ≤ 128) (hport : port < 65536) :
    (httpMessages conf host port).flatten =
      requestLine host port ++ 13 :: 10 :: (hostLine host port ++ 13 :: 10 ::
        (if conf.proxyuser.bytes = [] then [13, 10]
          else loginLine conf ++ 13 :: 10 :: [13, 10])) := by
  have hend : ascii "\r\n" = [13, 10] := by decide
  rw [httpMessages_eq hlen hport, httpTexts, connectText_eq, authorizationText_eq, hend]
  split <;> simp

theorem readHeaders_request (hline : 10 ∉ host.bytes) (fuel : Nat) :
    readHeaders (fuel + 3) (hostLine host port ++ 13 :: 10 ::
      (if conf.proxyuser.bytes = [] then [13, 10] else loginLine conf ++ 13 :: 10 :: [13, 10])) =
      some (headers conf host port) := by
  have hhost : hostLine host port ≠ [] := List.cons_ne_nil _ _
  have hlogin : loginLine conf ≠ [] := List.cons_ne_nil _ _
  rw [readHeaders_cons (notMem_hostLine hline) hhost, headers]
  split
  · rw [readHeaders_end, Option.map_some]
  · rw [readHeaders_cons (notMem_loginLine conf) hlogin, readHeaders_end, Option.map_some,
      Option.map_some]

/-- What the proxy reads, where the host breaks no line. -/
theorem read_request (hlen : host.bytes.length ≤ 128) (hport : port < 65536)
    (hline : 10 ∉ host.bytes) (hblank : 32 ∉ host.bytes) :
    read (httpMessages conf host port).flatten = some ⟨host.bytes, port,
      if conf.proxyuser.bytes = [] then none
      else field 58 (conf.proxyuser.bytes ++ 58 :: conf.proxypass.bytes)⟩ := by
  have hrequest : 10 ∉ requestLine host port := by
    have hauthority : 10 ∉ authority host port :=
      (notMem_authority (by decide) (by decide)).mpr hline
    have h1 : 10 ∉ ascii "CONNECT" := by decide
    have h2 : 10 ∉ ascii "HTTP/1.1" := by decide
    simp [requestLine, h1, h2, hauthority]
  have hlogin : (headers conf host port).findSome? readLogin =
      if conf.proxyuser.bytes = [] then none
      else field 58 (conf.proxyuser.bytes ++ 58 :: conf.proxypass.bytes) := by
    rw [headers, List.findSome?_cons, readLogin_hostLine]
    dsimp only
    split
    · rfl
    · rw [List.findSome?_singleton, readLogin_loginLine]
  rw [flatten_httpMessages hlen hport, read, readLine_append hrequest, Option.bind_some]
  dsimp only
  rw [readTarget_requestLine hblank, Option.bind_some]
  dsimp only
  have hfuel : ∃ fuel, (hostLine host port ++ 13 :: 10 ::
      (if conf.proxyuser.bytes = [] then [13, 10]
        else loginLine conf ++ 13 :: 10 :: [13, 10])).length = fuel + 3 := by
    refine Nat.exists_eq_add_of_le' ?_
    rw [List.length_append, List.length_cons, List.length_cons]
    have hpos : 0 < (hostLine host port).length := List.length_pos_iff.mpr (List.cons_ne_nil _ _)
    omega
  obtain ⟨fuel, hfuel⟩ := hfuel
  rw [hfuel, readHeaders_request hline, Option.map_some, hlogin]

/-- A host that was read is a part of one line, and has no blank. -/
theorem notMem_of_read {s : List UInt8} {r : HttpConnect} (h : read s = some r) :
    10 ∉ r.host ∧ 32 ∉ r.host := by
  obtain ⟨⟨line, rest⟩, hline, h⟩ := Option.bind_eq_some_iff.mp h
  obtain ⟨⟨host, port⟩, htarget, h⟩ := Option.bind_eq_some_iff.mp h
  obtain ⟨headers, -, rfl⟩ := Option.map_eq_some_iff.mp h
  obtain ⟨⟨raw, rest'⟩, hraw, hcut⟩ := Option.map_eq_some_iff.mp hline
  obtain ⟨⟨method, rest''⟩, hmethod, htarget⟩ := Option.bind_eq_some_iff.mp htarget
  dsimp only at htarget hcut ⊢
  split at htarget
  · obtain ⟨⟨target, version⟩, hfield, htarget⟩ := Option.bind_eq_some_iff.mp htarget
    obtain ⟨⟨host', digits⟩, hlast, htarget⟩ := Option.bind_eq_some_iff.mp htarget
    obtain ⟨n, -, heq⟩ := Option.map_eq_some_iff.mp htarget
    obtain ⟨rfl, -⟩ := Prod.mk.inj heq
    obtain ⟨hsplit, hblank⟩ := field_eq_some_iff.mp hfield
    obtain ⟨hline', -⟩ := field_eq_some_iff.mp hmethod
    obtain ⟨-, hraw⟩ := field_eq_some_iff.mp hraw
    obtain ⟨htarget', -⟩ := lastField_eq_some_iff.mp hlast
    dsimp only at htarget' ⊢
    have hsub : line ⊆ raw := by
      obtain ⟨rfl, -⟩ := Prod.mk.inj hcut
      split
      · exact List.dropLast_subset raw
      · exact List.Subset.refl raw
    refine ⟨fun h ↦ hraw (hsub ?_), fun h ↦ hblank ?_⟩
    · rw [hline', hsplit, htarget']
      simp [h]
    · rw [htarget']
      simp [h]
  · cases htarget

/-- **Round trip.**  The proxy reads the host, the port, the user and the password exactly if
the host has no blank and no line end and the user has no colon. -/
theorem read_eq_iff (hlen : host.bytes.length ≤ 128) (hport : port < 65536) :
    read (httpMessages conf host port).flatten = some ⟨host.bytes, port,
        if conf.proxyuser.bytes = [] then none
        else some (conf.proxyuser.bytes, conf.proxypass.bytes)⟩ ↔
      10 ∉ host.bytes ∧ 32 ∉ host.bytes ∧ 58 ∉ conf.proxyuser.bytes := by
  constructor
  · intro h
    obtain ⟨hline, hblank⟩ := notMem_of_read h
    refine ⟨hline, hblank, ?_⟩
    rw [read_request hlen hport hline hblank] at h
    have hlogin := (HttpConnect.mk.inj (Option.some.inj h)).2.2
    split at hlogin
    · next hnil =>
        rw [hnil]
        exact List.not_mem_nil
    · exact (field_eq_some_iff.mp hlogin).2
  · rintro ⟨hline, hblank, hcolon⟩
    rw [read_request hlen hport hline hblank, field_append hcolon]

/-- A session that has ended well: the proxy has answered once, with at least the first 11 bytes
of a good status line.  The buffer of `http_canwrite` has cut none of its messages, and of each
a part was sent.  Where `send` has cut none either, the proxy reads what was meant exactly if
the host has no blank and no line end and the user no colon. -/
structure Served (conf : Conf) (host : CString) (port : Nat) (answer : List UInt8)
    (parts : List (List UInt8)) (wire : List Message) : Prop where
  answers : answers wire = [answer]
  granted : ∃ b, httpGoodstring <+: answer ++ [b] ∨ httpGoodstring2 <+: answer ++ [b]
  sent : sentBytes wire = parts.flatten
  uncut : httpMessages conf host port = httpTexts conf host port
  prefixes : List.Forall₂ (· <+: ·) parts (httpTexts conf host port)
  read_iff : parts = httpTexts conf host port →
    (read (sentBytes wire) = some ⟨host.bytes, port,
        if conf.proxyuser.bytes = [] then none
        else some (conf.proxyuser.bytes, conf.proxypass.bytes)⟩ ↔
      10 ∉ host.bytes ∧ 32 ∉ host.bytes ∧ 58 ∉ conf.proxyuser.bytes)

end HttpConnect

end Proxy

namespace World

open Proxy

variable {conf : Conf} {O : Finset Fd} {es : List Event}

/-- **HTTP.**  When a function is called with a descriptor, the proxy has agreed, the buffer has
cut no message, and unless `send` has cut one the proxy was asked for the host and the port. -/
theorem http_served (hO : ∀ fd ∈ O, 0 ≤ fd) (hadm : Along conf Admissible (init O) es)
    (hfunc : connectFunc conf = some .httpCanwrite) :
    ∀ w ∈ run conf (init O) es, ∀ a f s, (a, .called f s) ∈ w.ended → s ≠ -1 →
      ∃ host port answer parts, w.asked a = some (host, port) ∧
        HttpConnect.Served conf host (port % 65536).toNat answer parts (w.wire a) := by
  intro w hw a f s ha hs
  obtain ⟨host, port, hasked, hlen, hagreed⟩ := agreed_of_called' hO hadm w hw a f s ha hs
  have hport : unsignedShort port < 65536 := unsignedShort_lt port
  generalize w.wire a = wire at hagreed
  cases hagreed with
  | direct hnone => exact absurd (hfunc.symm.trans hnone) (Option.some_ne_none _)
  | @through g talk answer hg htalk hanswer =>
      have hcanwrite : g.canwrite = .httpCanwrite := Option.some.inj (hg.symm.trans hfunc)
      cases htalk with
      | s4 _ _ => cases hcanwrite
      | s4a _ => cases hcanwrite
      | s5Greeting => cases hcanwrite
      | s5Auth => cases hcanwrite
      | s5Connect _ _ => cases hcanwrite
      | @http parts hparts =>
          have hanswers : answers (parts.map .sent ++ [.received answer]) = [answer] := by
            simp [answers, List.filterMap_map]
          have hsent : sentBytes (parts.map .sent ++ [.received answer]) = parts.flatten := by
            simp [sentBytes, List.flatMap_map]
          have huncut : httpMessages conf host (port % 65536).toNat =
              httpTexts conf host (port % 65536).toNat := httpMessages_eq hlen hport
          refine ⟨host, port, answer, parts, hasked, hanswers, hanswer, hsent, huncut,
            huncut ▸ hparts, fun hfull ↦ ?_⟩
          rw [hsent, hfull, ← huncut]
          exact HttpConnect.read_eq_iff hlen hport

theorem http_served_login : ∃ w ∈ run (proxiedConf 1) (init {0, 1, 2})
      [connectH, fine 1 [], fine 2 httpGoodstring],
    ∃ host port answer parts, w.asked 0 = some (host, port) ∧
      HttpConnect.Served (proxiedConf 1) host (port % 65536).toNat answer parts (w.wire 0) := by
  have hended : ((run (proxiedConf 1) (init {0, 1, 2})
      [connectH, fine 1 [], fine 2 httpGoodstring]).map ended) =
        some [(0, .called 7 5)] := by decide
  obtain ⟨w, hw, hcalled⟩ := Option.map_eq_some_iff.mp hended
  exact ⟨w, hw, http_served (by decide) (along_fine [(1, []), (2, httpGoodstring)]) (by decide) w
    hw 0 7 5 (by rw [hcalled]; exact List.mem_singleton_self _) (by decide)⟩

end World

end TelepathyFacebook
