import TelepathyFacebook.Lib.Base64
import TelepathyFacebook.Lib.Decimal

/-!
# What is said to a proxy

The handshakes of `bitlbee-compat/proxy.c`: what the `canwrite` functions send and what the
`canread` functions make of an answer, as pure functions.  The functions themselves, with the
records and descriptors they work on, are in `Proxy`.
-/

namespace TelepathyFacebook

namespace Proxy

/-- A C string. -/
structure CString where
  bytes : List UInt8
  zero_notMem : 0 ∉ bytes
deriving DecidableEq

/-- The global settings of the file. -/
structure Conf where
  proxyhost : CString
  proxyport : Int
  proxytype : Int
  proxyuser : CString
  proxypass : CString
  /-- The arrays have room for 127 bytes and the terminator. -/
  length_proxyuser : proxyuser.bytes.length < 128
  length_proxypass : proxypass.bytes.length < 128

/-- The settings that the file starts with, `PROXY_NONE`. -/
def Conf.initial : Conf where
  proxyhost := ⟨[], List.not_mem_nil⟩
  proxyport := 0
  proxytype := 0
  proxyuser := ⟨[], List.not_mem_nil⟩
  proxypass := ⟨[], List.not_mem_nil⟩
  length_proxyuser := by decide
  length_proxypass := by decide

/-- The functions of the file that wait for an answer of the proxy. -/
inductive ReadFunc where
  | httpCanread
  | s4Canread
  | s5Canread
  | s5Readauth
  | s5CanreadAgain
deriving DecidableEq, Repr

/-- The functions of the file that a watch calls. -/
inductive Handler where
  | proxyConnected
  | read (f : ReadFunc)
deriving DecidableEq, Repr

/-- The functions of the file that `proxy_func` points to. -/
inductive ProxyFunc where
  | httpCanwrite
  | s4Canwrite
  | s5Canwrite
deriving DecidableEq, Repr

/-- Bytes on a connection. -/
inductive Message where
  | sent (bytes : List UInt8)
  | received (bytes : List UInt8)
deriving DecidableEq, Repr

/-- How a function of the handshake goes on. -/
inductive Reaction where
  /-- `return phb_free (phb, FALSE)`. -/
  | fail
  /-- `return phb_connected (phb, source)`. -/
  | connected
  /-- The messages are written, one after the other while `accept` takes the result of the
  write for a message of the length; then `next` waits for the answer. -/
  | send (messages : List (List UInt8)) (accept : Int → Nat → Bool) (next : ReadFunc)

/-- The first four bytes of an address. -/
abbrev Addr4 := UInt8 × UInt8 × UInt8 × UInt8

/-! ## Text -/

def ascii (s : String) : List UInt8 := s.toList.map fun c ↦ UInt8.ofNat c.toNat

/-- `%d`. -/
def printNat (n : Nat) : List UInt8 := ascii (toString n)

/-- `g_snprintf`, with the text that the format makes. -/
def gSnprintf (size : Nat) (text : List UInt8) : List UInt8 := text.take (size - 1)

/-- `tobase64`, through `g_base64_encode`. -/
def tobase64 (text : List UInt8) : List UInt8 := Base64.encode text

/-- The upper and the lower byte of a port. -/
def portBytes (port : Nat) : List UInt8 := [UInt8.ofNat (port >>> 8), UInt8.ofNat (port &&& 0xff)]

/-! ## HTTP -/

/-- The text of `http_canwrite` with the host and the port. -/
def connectText (host : CString) (port : Nat) : List UInt8 :=
  ascii "CONNECT " ++ host.bytes ++ ascii ":" ++ printNat port ++ ascii " HTTP/1.1\r\nHost: " ++
    host.bytes ++ ascii ":" ++ printNat port ++ ascii "\r\n"

/-- The text of `http_canwrite` with the user and the password. -/
def authorizationText (conf : Conf) : List UInt8 :=
  ascii "Proxy-Authorization: Basic " ++
    tobase64 (conf.proxyuser.bytes ++ ascii ":" ++ conf.proxypass.bytes) ++ ascii "\r\n"

def httpCanwrite (conf : Conf) (host : CString) (port : Nat) : Reaction :=
  .send
    ([gSnprintf 384 (connectText host port)] ++
      (if conf.proxyuser.bytes = [] then [] else [gSnprintf 384 (authorizationText conf)]) ++
      [gSnprintf 384 (ascii "\r\n")])
    (fun n _ ↦ 0 ≤ n) .httpCanread

/-- The loop of `http_canread`: the bytes it reads, with room for so many more and so many
line ends behind it. -/
def readHeader : Nat → Nat → List UInt8 → List UInt8
  | 0, _, _ => []
  | _ + 1, 2, _ => []
  | _ + 1, _, [] => []
  | room + 1, nlc, b :: bs =>
      b :: readHeader room (if b = 10 then nlc + 1 else if b = 13 then nlc else 0) bs

/-- The loop ended because there was nothing to read. -/
def headerEnds : Nat → Nat → List UInt8 → Bool
  | 0, _, _ => false
  | _ + 1, 2, _ => false
  | _ + 1, _, [] => true
  | room + 1, nlc, b :: bs =>
      headerEnds room (if b = 10 then nlc + 1 else if b = 13 then nlc else 0) bs

/-- What is left in `inputline`: a byte that could not be read was counted, and is what was
in the array before. -/
def inputline (stream : List UInt8) (junk : UInt8) : List UInt8 :=
  readHeader 8191 0 stream ++ (if headerEnds 8191 0 stream then [junk] else []) ++ [0]

def httpGoodstring : List UInt8 := ascii "HTTP/1.0 200"
def httpGoodstring2 : List UInt8 := ascii "HTTP/1.1 200"

/-- `http_canread`, from the bytes that can be read until the connection ends. -/
def httpCanread (stream : List UInt8) (junk : UInt8) : Reaction :=
  if httpGoodstring <+: inputline stream junk ∨ httpGoodstring2 <+: inputline stream junk then
    .connected
  else .fail

/-! ## SOCKS4 -/

def s4Packet (port : Nat) (addr : Addr4) : List UInt8 :=
  [4, 1] ++ portBytes port ++ [addr.1, addr.2.1, addr.2.2.1, addr.2.2.2, 0]

def s4Canwrite (conf : Conf) (gethostbyname : CString → Option Addr4) (host : CString)
    (port : Nat) : Reaction :=
  if conf.proxytype = 4 then
    .send [s4Packet port (0, 0, 0, 1), host.bytes ++ [0]] (fun n len ↦ n = len) .s4Canread
  else
    match gethostbyname host with
    | none => .fail
    | some addr => .send [s4Packet port addr] (fun n len ↦ n = len) .s4Canread

/-- `s4_canread`, from what `read` gave. -/
def s4Canread (packet : List UInt8) : Reaction :=
  if 4 ≤ packet.length ∧ packet[1]? = some 90 then .connected else .fail

/-! ## SOCKS5 -/

/-- A comparison of the result of `write` with a length that is signed. -/
def shortSigned (n : Int) (len : Nat) : Bool := n < len

/-- The same with a `size_t` of 64 bits: -1 is converted to the largest one. -/
def shortUnsigned (n : Int) (len : Nat) : Bool := n % 18446744073709551616 < len

def s5Greeting (conf : Conf) : List UInt8 :=
  if conf.proxyuser.bytes = [] then [5, 1, 0] else [5, 2, 0, 2]

def s5Canwrite (conf : Conf) : Reaction :=
  .send [s5Greeting conf] (fun n len ↦ ¬ shortSigned n len) .s5Canread

def s5Auth (conf : Conf) : List UInt8 :=
  [1, UInt8.ofNat conf.proxyuser.bytes.length] ++ conf.proxyuser.bytes ++
    [UInt8.ofNat conf.proxypass.bytes.length] ++ conf.proxypass.bytes

def s5Connect (host : CString) (port : Nat) : List UInt8 :=
  [5, 1, 0, 3, UInt8.ofNat host.bytes.length] ++ host.bytes ++ portBytes port

/-- `s5_sendconnect`. -/
def s5Sendconnect (host : CString) (port : Nat) : Reaction :=
  .send [s5Connect host port] (fun n len ↦ ¬ shortUnsigned n len) .s5CanreadAgain

/-- `s5_canread`, from what `read` gave; the length is an `unsigned int`, which fits in
`ssize_t`. -/
def s5Canread (conf : Conf) (host : CString) (port : Nat) (buf : List UInt8) : Reaction :=
  if buf.length < 2 then .fail
  else if buf[0]? ≠ some 0x05 ∨ buf[1]? = some 0xff then .fail
  else if buf[1]? = some 0x02 then
    .send [s5Auth conf] (fun n len ↦ ¬ shortSigned n len) .s5Readauth
  else s5Sendconnect host port

/-- `s5_readauth`. -/
def s5Readauth (host : CString) (port : Nat) (buf : List UInt8) : Reaction :=
  if buf.length < 2 then .fail
  else if buf[0]? ≠ some 0x01 ∨ buf[1]? ≠ some 0x00 then .fail
  else s5Sendconnect host port

/-- `s5_canread_again`. -/
def s5CanreadAgain (buf : List UInt8) : Reaction :=
  if buf.length < 10 then .fail
  else if buf[0]? ≠ some 0x05 ∨ buf[1]? ≠ some 0x00 then .fail
  else .connected

/-! ## The functions by name -/

/-- What a function of the handshake reads of the bytes that are there. -/
def readOf : ReadFunc → List UInt8 → List UInt8
  | .httpCanread, stream => readHeader 8191 0 stream
  | .s4Canread, stream => stream.take 9
  | .s5Canread, stream | .s5Readauth, stream => stream.take 2
  | .s5CanreadAgain, stream => stream.take 10

/-- What a `canread` function does. -/
def canread (conf : Conf) (host : CString) (port : Nat) (stream : List UInt8) (junk : UInt8) :
    ReadFunc → Reaction
  | .httpCanread => httpCanread stream junk
  | .s4Canread => s4Canread (stream.take 9)
  | .s5Canread => s5Canread conf host port (stream.take 2)
  | .s5Readauth => s5Readauth host port (stream.take 2)
  | .s5CanreadAgain => s5CanreadAgain (stream.take 10)

/-- What a `canwrite` function does. -/
def canwrite (conf : Conf) (gethostbyname : CString → Option Addr4) (host : CString)
    (port : Nat) : ProxyFunc → Reaction
  | .httpCanwrite => httpCanwrite conf host port
  | .s4Canwrite => s4Canwrite conf gethostbyname host port
  | .s5Canwrite => s5Canwrite conf

end Proxy

end TelepathyFacebook
