import TelepathyFacebook.EventLoop
import TelepathyFacebook.ProxyWire
import TelepathyFacebook.Lib.Ledger
import TelepathyFacebook.Lib.Runs
import Mathlib.Data.Finset.Basic
import Mathlib.Logic.Function.Basic

/-!
# Connecting to a server

`bitlbee-compat/proxy.c`: `proxy_connect` connects to a server in the background, directly
or through an HTTP, SOCKS4 or SOCKS5 proxy, and calls a function when the connection is
ready or has failed; `proxy_disconnect` gives a connection up.

A `World` is the memory of the file (the records `struct PHB` by their addresses and the
table `phb_hash`) with what it acts on: the watches of the event loop and the descriptors
that are open.  The last fields of it are its history, which the code does not read.  An
event carries the answers of the kernel and of the resolver, so a list of events is a run
with any interleaving of the connections.  `none` is a crash: the use of a record that was
freed, or a NULL dereference.

The functions of the callers are not run here.  Where the code calls one, it does nothing
afterwards but free what no other code points to any more, so what a caller does in its
function is the events that follow.
-/

namespace TelepathyFacebook

open Runs

namespace Proxy

/-! ## Data -/

/-- What `proxy_connect` is given to call, with its data. -/
abbrev Client := Nat

/-- An entry of the list that `getaddrinfo` makes. -/
abbrev SockAddr := String

/-- `struct PHB`; `proxy_data` is the record itself, and an empty list is NULL. -/
structure PHB where
  func : Option Client
  proxyFunc : Option ProxyFunc
  host : Option CString
  port : Nat
  fd : Fd
  inpa : Nat
  gai : List SockAddr
  gaiCur : List SockAddr
deriving DecidableEq

/-- An entry of `phb_hash`: the hash that was taken of the key, the record whose `fd` the
key points to, and the record that is the value. -/
structure Entry where
  hash : Fd
  key : Nat
  value : Nat
deriving DecidableEq, Repr

/-- How a record ends. -/
inductive Outcome where
  /-- The function of the caller is called with a descriptor. -/
  | called (func : Client) (source : Fd)
  /-- `proxy_disconnect` gave the connection up. -/
  | disconnected
  /-- `proxy_connect` returned -1. -/
  | refused
deriving DecidableEq, Repr

/-- What comes of one round of `proxy_connect_none`. -/
inductive Attempt where
  /-- `socket` failed. -/
  | noSocket
  /-- `connect` failed at once. -/
  | refused (fd : Fd)
  /-- `connect` went well or is under way. -/
  | pending (fd : Fd)
deriving DecidableEq, Repr

/-- What the kernel and the resolver answer while a function of the file runs. -/
structure Answers where
  /-- `SO_ERROR` is 0. -/
  connected : Bool
  /-- The rounds of `proxy_connect_none`, by what is left of the list of addresses. -/
  attempt : List SockAddr → Attempt
  /-- `getsockopt` works in a `canwrite` function. -/
  getsockopt : Bool
  gethostbyname : CString → Option Addr4
  /-- The result of each call of `write` or `send`. -/
  write : Nat → Int
  /-- The bytes that can be read. -/
  stream : List UInt8
  junk : UInt8

end Proxy

open Proxy

/-- The state that `proxy.c` works on. -/
structure World where
  loop : EventLoop (Handler × Nat)
  openFds : Finset Fd
  heap : Nat → Option PHB
  /-- The address of the next record. -/
  next : Nat
  phbHash : List Entry
  /-- What was asked for with each record. -/
  asked : Nat → Option (CString × Int)
  /-- The bytes that went over each connection before its function was called. -/
  wire : Nat → List Message
  ended : List (Nat × Outcome)
  /-- The descriptors that `close` was called with, and whether they were open. -/
  closes : List (Fd × Bool)

namespace World

def init (openFds : Finset Fd) : World :=
  ⟨.empty, openFds, fun _ ↦ none, 0, [], fun _ ↦ none, fun _ ↦ [], [], []⟩

/-! ## Memory, descriptors and watches -/

/-- The record at an address is overwritten. -/
def set (w : World) (phb : Nat) (p : PHB) : World :=
  { w with heap := Function.update w.heap phb (some p) }

/-- `socket` returned a descriptor. -/
def socket (w : World) (fd : Fd) : World := { w with openFds := insert fd w.openFds }

def closesocket (w : World) (fd : Fd) : World :=
  { w with openFds := w.openFds.erase fd, closes := w.closes ++ [(fd, decide (fd ∈ w.openFds))] }

/-- `dup2`, which fails if its first descriptor is not open. -/
def dup2 (w : World) (fd fd2 : Fd) : World :=
  if fd ∈ w.openFds then { w with openFds := insert fd2 w.openFds } else w

def bEventRemove (w : World) (tag : Nat) : World := { w with loop := w.loop.bEventRemove tag }

/-- `phb->inpa = b_input_add (…, phb)`. -/
def bInputAdd (w : World) (phb : Nat) (p : PHB) (fd : Fd) (cond : BInputCondition)
    (h : Handler) : World :=
  { w with loop := w.loop.bInputAdd fd cond (h, phb) }.set phb { p with inpa := w.loop.nextTag }

/-- The messages go over the connection. -/
def log (w : World) (phb : Nat) (ms : List Message) : World :=
  { w with wire := Function.update w.wire phb (w.wire phb ++ ms) }

/-- A search of `phb_hash`: `g_int_equal` reads the keys whose hash is the right one. -/
def findEntry (heap : Nat → Option PHB) (fd : Fd) : List Entry → Option (Option Entry)
  | [] => some none
  | e :: es =>
      if e.hash = fd then
        (heap e.key).bind fun p ↦ if p.fd = fd then some (some e) else findEntry heap fd es
      else findEntry heap fd es

/-- `g_hash_table_lookup`. -/
def hashLookup (w : World) (fd : Fd) : Option (Option Nat) :=
  (findEntry w.heap fd w.phbHash).map (Option.map Entry.value)

/-- `g_hash_table_remove`. -/
def hashRemove (w : World) (fd : Fd) : Option World :=
  (findEntry w.heap fd w.phbHash).map fun
    | none => w
    | some e => { w with phbHash := w.phbHash.erase e }

/-- `g_hash_table_insert`: a key that is in the table stays, with the new value. -/
def hashInsert (w : World) (fd : Fd) (phb : Nat) : Option World :=
  (findEntry w.heap fd w.phbHash).map fun
    | none => { w with phbHash := w.phbHash ++ [⟨fd, phb, phb⟩] }
    | some e =>
        { w with phbHash := w.phbHash.map fun x ↦ if x = e then { e with value := phb } else x }

/-! ## The end of a record -/

/-- The memory of the record is gone. -/
def gFree (w : World) (phb : Nat) (o : Outcome) : World :=
  { w with heap := Function.update w.heap phb none, ended := w.ended ++ [(phb, o)] }

/-- `phb_free (phb, FALSE)`. -/
def phbFail (w : World) (phb : Nat) : Option World :=
  (w.heap phb).bind fun p ↦
    (w.hashRemove p.fd).map fun w ↦
      let w := if 0 < p.fd then w.closesocket p.fd else w
      w.gFree phb (match p.func with | some f => .called f (-1) | none => .disconnected)

/-- `phb_free (phb, TRUE)`; the outcome is what the caller of it does. -/
def phbFree (w : World) (phb : Nat) (o : Outcome) : Option World :=
  (w.heap phb).bind fun p ↦ (w.hashRemove p.fd).map fun w ↦ w.gFree phb o

/-- `phb_connected`: the call of a NULL function is a crash. -/
def phbConnected (w : World) (phb : Nat) (source : Fd) : Option World :=
  (w.heap phb).bind fun p ↦ p.func.bind fun f ↦ w.phbFree phb (.called f source)

/-! ## Handshakes -/

/-- The messages are written as long as the results are accepted. -/
def sendAll (phb : Nat) (write : Nat → Int) (accept : Int → Nat → Bool) :
    Nat → List (List UInt8) → World → World × Bool
  | _, [], w => (w, true)
  | i, m :: ms, w =>
      let w := w.log phb [.sent (m.take (write i).toNat)]
      if accept (write i) m.length then sendAll phb write accept (i + 1) ms w else (w, false)

def react (w : World) (phb : Nat) (source : Fd) (write : Nat → Int) : Reaction → Option World
  | .fail => w.phbFail phb
  | .connected => w.phbConnected phb source
  | .send messages accept next =>
      let (w, sent) := w.sendAll phb write accept 0 messages
      if sent then (w.heap phb).map fun p ↦ w.bInputAdd phb p source .read (.read next)
      else w.phbFail phb

variable (conf : Conf)

/-- `http_canwrite`, `s4_canwrite` and `s5_canwrite`. -/
def canwrite (w : World) (phb : Nat) (source : Fd) (a : Answers) (f : ProxyFunc) :
    Option World :=
  (w.heap phb).bind fun p ↦
    let w := if 0 < p.inpa then w.bEventRemove p.inpa else w
    if source ∈ w.openFds ∧ a.getsockopt then
      p.host.bind fun host ↦
        w.react phb source a.write (Proxy.canwrite conf a.gethostbyname host p.port f)
    else w.phbFail phb

/-- `http_canread`, `s4_canread`, `s5_canread`, `s5_readauth` and `s5_canread_again`. -/
def canread (w : World) (phb : Nat) (source : Fd) (a : Answers) (f : ReadFunc) : Option World :=
  (w.heap phb).bind fun p ↦
    let w := (w.bEventRemove p.inpa).log phb [.received (readOf f a.stream)]
    p.host.bind fun host ↦
      w.react phb source a.write (Proxy.canread conf host p.port a.stream a.junk f)

/-! ## Connections -/

/-- The loop of `proxy_connect_none`, over what is left of the list of addresses. -/
def tryAddresses (phb : Nat) (attempt : List SockAddr → Attempt) :
    List SockAddr → World → PHB → World × Fd
  | [], w, p => (w.set phb { p with gaiCur := [] }, -1)
  | addr :: rest, w, p =>
      match attempt (addr :: rest) with
      | .noSocket => tryAddresses phb attempt rest w p
      | .refused fd => tryAddresses phb attempt rest ((w.socket fd).closesocket fd) p
      | .pending fd =>
          ((w.socket fd).bInputAdd phb { p with gaiCur := addr :: rest, fd } fd .write
            .proxyConnected, fd)

/-- `proxy_connect_none` with a host; `gai` is what `getaddrinfo` gives for it and the
port. -/
def proxyConnectNone (w : World) (phb : Nat) (gai : List SockAddr)
    (attempt : List SockAddr → Attempt) : Option (World × Fd) :=
  (w.heap phb).bind fun p ↦
    let p := if p.gaiCur = [] then { p with gai, gaiCur := gai } else p
    let (w, fd) := tryAddresses phb attempt p.gaiCur w p
    if fd < 0 then (w.phbFree phb .refused).map (·, fd) else some (w, fd)

/-- `proxy_connect_none (NULL, 0, phb)`, called where there is an address left. -/
def proxyConnectNext (w : World) (phb : Nat) (attempt : List SockAddr → Attempt) :
    Option (World × Fd) :=
  (w.heap phb).map fun p ↦ tryAddresses phb attempt p.gaiCur w p

/-- The end of `proxy_connected`: `source` is -1 if the connection failed. -/
def proxyResolved (w : World) (phb : Nat) (source : Fd) (a : Answers) : Option World :=
  (w.heap phb).bind fun p ↦
    let w := (w.bEventRemove p.inpa).set phb { p with gai := [], inpa := 0 }
    match p.proxyFunc with
    | some f => w.canwrite conf phb source a f
    | none => w.phbConnected phb source

/-- `proxy_connected`. -/
def proxyConnected (w : World) (phb : Nat) (source : Fd) (a : Answers) : Option World :=
  (w.heap phb).bind fun p ↦
    if source ∈ w.openFds ∧ a.connected then w.proxyResolved conf phb source a
    else
      match p.gaiCur with
      | [] => none
      | _ :: rest =>
          let w := w.set phb { p with gaiCur := rest }
          if rest = [] then (w.closesocket source).proxyResolved conf phb (-1) a
          else
            ((w.bEventRemove p.inpa).proxyConnectNext phb a.attempt).bind fun (w, newFd) ↦
              if newFd = 0 then (w.closesocket source).proxyResolved conf phb (-1) a
              else
                (w.heap phb).map fun p ↦
                  let w := ((w.bEventRemove p.inpa).closesocket source).dup2 newFd source
                  (w.closesocket newFd).bInputAdd phb { p with fd := source } source .write
                    .proxyConnected

/-- The function of a watch. -/
def handler (w : World) (h : Handler) (phb : Nat) (source : Fd) (a : Answers) : Option World :=
  match h with
  | .proxyConnected => w.proxyConnected conf phb source a
  | .read f => w.canread conf phb source a f

/-- The function that `proxy_connect` takes from `proxy_connect_funcs_array`, as the
`proxy_func` that it sets. -/
def connectFunc (conf : Conf) : Option ProxyFunc :=
  if conf.proxyhost.bytes ≠ [] ∧ 0 < conf.proxyport ∧ 0 ≤ conf.proxytype ∧ conf.proxytype < 5 then
    match conf.proxytype with
    | 1 => some .httpCanwrite
    | 2 | 4 => some .s4Canwrite
    | 3 => some .s5Canwrite
    | _ => none
  else none

/-- A port as an `unsigned short`. -/
def unsignedShort (port : Int) : Nat := (port % 65536).toNat

/-- `proxy_connect`, with what it returns. -/
def proxyConnect (w : World) (host : Option CString) (port : Int) (func : Option Client)
    (getaddrinfo : CString → Nat → List SockAddr) (attempt : List SockAddr → Attempt) :
    Option (World × Fd) :=
  match host, func with
  | some host, some func =>
      if port ≤ 0 ∨ 128 < host.bytes.length then some (w, -1)
      else
        let phb := w.next
        let w := { w with
          next := w.next + 1
          asked := Function.update w.asked phb (some (host, port)) }
        let p : PHB := ⟨some func, none, none, 0, 0, 0, [], []⟩
        let connected :=
          match connectFunc conf with
          | none =>
              (w.set phb p).proxyConnectNone phb (getaddrinfo host (unsignedShort port)) attempt
          | some f =>
              (w.set phb { p with
                proxyFunc := some f
                host := some host
                port := unsignedShort port }).proxyConnectNone phb
                (getaddrinfo conf.proxyhost (unsignedShort conf.proxyport)) attempt
        connected.bind fun (w, fd) ↦
          if fd = -1 then some (w, fd) else (w.hashInsert fd phb).map (·, fd)
  | _, _ => some (w, -1)

/-- `proxy_disconnect`. -/
def proxyDisconnect (w : World) (fd : Fd) : Option World :=
  (w.hashLookup fd).bind fun
    | none => some (w.closesocket fd)
    | some phb =>
        (w.heap phb).bind fun p ↦
          let (w, p) :=
            if p.inpa = 0 then (w, p) else (w.bEventRemove p.inpa, { p with inpa := 0 })
          (w.set phb { p with func := none }).phbFail phb

/-! ## Runs -/

/-- What happens to the file. -/
inductive Event where
  /-- A call of `proxy_connect`. -/
  | connect (host : Option CString) (port : Int) (func : Option Client)
      (getaddrinfo : CString → Nat → List SockAddr) (attempt : List SockAddr → Attempt)
  /-- A call of `proxy_disconnect`. -/
  | disconnect (fd : Fd)
  /-- The descriptor of a watch is ready. -/
  | ready (tag : Nat) (a : Answers)
  /-- Another part of the program opens or closes a descriptor. -/
  | opened (fd : Fd)
  | closed (fd : Fd)

/-- One event; a watch is removed after its function, which always returns FALSE. -/
def step (w : World) : Event → Option World
  | .connect host port func getaddrinfo attempt =>
      (w.proxyConnect conf host port func getaddrinfo attempt).map Prod.fst
  | .disconnect fd => w.proxyDisconnect fd
  | .ready tag a =>
      match w.loop.gaimIoInvoke (fun fd ↦ fd ∈ w.openFds) tag with
      | .none => some w
      | .dropped => some (w.bEventRemove tag)
      | .call x => (w.handler conf x.closure.1 x.closure.2 x.fd a).map (·.bEventRemove tag)
  | .opened fd => some (w.socket fd)
  | .closed fd => some (w.closesocket fd)

end World

end TelepathyFacebook
