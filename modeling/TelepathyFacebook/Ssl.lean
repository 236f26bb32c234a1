import TelepathyFacebook.ProxyClients

/-!
# TLS connections

`bitlbee-compat/ssl_openssl.c`: `ssl_connect` connects to a server with `proxy_connect` and
shakes hands with it, `ssl_starttls` shakes hands on a descriptor that is there already, and
both call a function of the client in the end.

An `Ssl` is the memory of the file with what it acts on: the state of `proxy.c`, the watches for
`ssl_handshake_cb` and the timeouts for `ssl_starttls_real`.  These watches are numbered by
themselves.  OpenSSL is what it answers (`Results`).  The blocking mode of the descriptors and
the bytes that OpenSSL reads and writes are left out.

The function of a client acts on the state while it runs, and where it returns the code goes on
with what `frame` says.  Nothing runs the main loop inside of it, so there is one at a time.  As
in `Proxy`, a list of events is a run with any interleaving of the connections, `none` is a
crash, and `ended` is a history that the code does not read.
-/

namespace TelepathyFacebook

open Proxy

namespace Openssl

/-! ## Data -/

/-- The answers of `SSL_get_error` that are told apart. -/
inductive Error where
  | wantRead
  | wantWrite
  | other
deriving DecidableEq, Repr

/-- `ssl_errno`. -/
inductive SslErrno where
  | ok
  | noHandshake
  | again
deriving DecidableEq, Repr

/-- An `SSL`: its descriptor, and the server name that it sends. -/
structure Session where
  fd : Fd
  hostName : Option CString
deriving DecidableEq

/-- `struct scd`; `none` is an `inpa` of -1. -/
structure Scd where
  func : Client
  fd : Fd
  established : Bool
  verify : Bool
  hostname : Option CString
  inpa : Option Nat
  lasterr : Error
  ssl : Option Session
deriving DecidableEq

/-- `ssl_getdirection`. -/
def Scd.direction (c : Scd) : BInputCondition :=
  if c.lasterr = .wantWrite then .write else .read

/-- What OpenSSL answers while a function of the file runs. -/
structure Results where
  /-- `SSL_CTX_new` gives a context. -/
  ctx : Bool
  /-- `SSL_new` gives an `SSL`. -/
  ssl : Bool
  /-- What `SSL_connect`, `SSL_read` or `SSL_write` returns, and `SSL_get_error` after it. -/
  st : Int
  error : Error

/-- The arguments with which the function of a client is called. -/
inductive Notice where
  /-- The connection, and 0. -/
  | established
  /-- NULL, and 0. -/
  | failed
  /-- NULL, and 1. -/
  | unverified
deriving DecidableEq, Repr

/-- What becomes of a connection before its client has it. -/
inductive Ending where
  /-- `ssl_connect` returned NULL. -/
  | refused
  | called (call : Notice)
  /-- The client called `ssl_disconnect` before. -/
  | givenUp
deriving DecidableEq, Repr

/-- The functions that wait for the function of a client, with their variables; `cb` says that
`ssl_handshake_cb` is among them. -/
inductive Frame where
  /-- `ssl_connected`, where it does not verify. -/
  | unverified (conn : Nat) (source : Fd)
  /-- `ssl_connected` or `ssl_handshake`, before `ssl_disconnect`. -/
  | failed (conn : Nat) (source : Fd) (cb : Bool)
  /-- `ssl_handshake`, at its end. -/
  | established (conn : Nat) (cb : Bool)
deriving DecidableEq, Repr

/-- The settings. -/
structure Env where
  conf : Conf
  /-- `global.conf->cafile` is not NULL. -/
  cafile : Bool
  /-- `g_hostname_is_ip_address`. -/
  isIpAddress : CString → Bool

/-- What `ssl_connected` makes with `SSL_new`, `SSL_set_fd` and `SSL_set_tlsext_host_name`. -/
def Env.session (E : Env) (c : Scd) : Session where
  fd := c.fd
  hostName := c.hostname.filter fun host ↦ !E.isIpAddress host

end Openssl

open Openssl

/-- The state that `ssl_openssl.c` works on. -/
structure Ssl where
  proxy : World
  loop : EventLoop Nat
  timeouts : List Nat
  heap : Nat → Option Scd
  /-- The address of the next record. -/
  next : Nat
  initialized : Bool
  /-- `ssl_ctx` is not NULL. -/
  sslCtx : Bool
  sslErrno : SslErrno
  frame : Option Frame
  ended : List (Nat × Ending)

namespace Ssl

def init (openFds : Finset Fd) : Ssl :=
  ⟨.init openFds, .empty, [], fun _ ↦ none, 0, false, false, .ok, none, []⟩

/-- The record at an address is overwritten. -/
def set (s : Ssl) (conn : Nat) (c : Scd) : Ssl :=
  { s with heap := Function.update s.heap conn (some c) }

def bEventRemove (s : Ssl) (tag : Nat) : Ssl := { s with loop := s.loop.bEventRemove tag }

def proxyDisconnect (s : Ssl) (fd : Fd) : Option Ssl :=
  (s.proxy.proxyDisconnect fd).map fun w ↦ { s with proxy := w }

/-- `conn->func (…)` is called, and `frame` is what follows. -/
def callFunc (s : Ssl) (conn : Nat) (call : Notice) (frame : Frame) : Ssl :=
  { s with frame := some frame, ended := s.ended ++ [(conn, .called call)] }

/-- The client has given the connection up, unless its function was called before. -/
def giveUp (s : Ssl) (conn : Nat) : Ssl :=
  { s with ended :=
      if conn ∈ s.ended.map Prod.fst then s.ended else s.ended ++ [(conn, .givenUp)] }

variable (E : Env)

/-! ## The functions -/

/-- `ssl_init`. -/
def sslInit (s : Ssl) (r : Results) : Ssl := { s with sslCtx := r.ctx, initialized := true }

/-- `ssl_conn_free`. -/
def sslConnFree (s : Ssl) (conn : Nat) : Option Ssl :=
  (s.heap conn).map fun _ ↦ { s with heap := Function.update s.heap conn none }

/-- `ssl_disconnect`; `SSL_shutdown` needs an `SSL`. -/
def sslDisconnect (s : Ssl) (conn : Nat) : Option Ssl :=
  (s.heap conn).bind fun c ↦
    let s := match c.inpa with
      | some tag => s.bEventRemove tag
      | none => s
    if c.established ∧ c.ssl = none then none
    else (s.proxyDisconnect c.fd).bind (·.sslConnFree conn)

/-- `ssl_handshake`, which always returns FALSE. -/
def sslHandshake (s : Ssl) (conn : Nat) (source : Fd) (cb : Bool) (r : Results) : Option Ssl :=
  (s.heap conn).bind fun c ↦ c.ssl.map fun _ ↦
    if r.st < 0 then
      let c := { c with lasterr := r.error }
      if r.error = .other then (s.set conn c).callFunc conn .failed (.failed conn source cb)
      else
        { s with loop := s.loop.bInputAdd c.fd c.direction conn }.set conn
          { c with inpa := some s.loop.nextTag }
    else
      (s.set conn { c with established := true }).callFunc conn .established (.established conn cb)

/-- The end of `ssl_handshake_cb`. -/
def clearInpa (s : Ssl) (conn : Nat) : Option Ssl :=
  (s.heap conn).map fun c ↦ s.set conn { c with inpa := some 0 }

/-- `ssl_handshake_cb`. -/
def sslHandshakeCb (s : Ssl) (conn : Nat) (source : Fd) (r : Results) : Option Ssl :=
  (s.sslHandshake conn source true r).bind fun s ↦
    if s.frame = none then s.clearInpa conn else some s

/-- `ssl_connected`. -/
def sslConnected (s : Ssl) (conn : Nat) (source : Fd) (r : Results) : Option Ssl :=
  (s.heap conn).bind fun c ↦
    if c.verify then some (s.callFunc conn .unverified (.unverified conn source))
    else if source = -1 then some (s.callFunc conn .failed (.failed conn source false))
    else
      let s := if s.initialized then s else s.sslInit r
      if s.sslCtx ∧ r.ssl then
        (s.set conn { c with ssl := some (E.session c) }).sslHandshake conn source false r
      else some (s.callFunc conn .failed (.failed conn source false))

/-- `ssl_starttls_real`. -/
def sslStarttlsReal (s : Ssl) (conn : Nat) (r : Results) : Option Ssl :=
  (s.heap conn).bind fun c ↦ s.sslConnected E conn c.fd r

/-- `ssl_connect`, with what it returns; it does not look at `verify`. -/
def sslConnect (s : Ssl) (host : Option CString) (port : Int) (_verify : Bool) (func : Client)
    (getaddrinfo : CString → Nat → List SockAddr) (attempt : List SockAddr → Attempt) :
    Option (Ssl × Option Nat) :=
  let conn := s.next
  let s := { s with next := s.next + 1 }
  (s.proxy.proxyConnect E.conf host port (some conn) getaddrinfo attempt).map fun (w, fd) ↦
    let s := { s with proxy := w }
    if fd < 0 then ({ s with ended := s.ended ++ [(conn, .refused)] }, none)
    else (s.set conn ⟨func, fd, false, false, host, none, .other, none⟩, some conn)

/-- `ssl_starttls`, with what it returns. -/
def sslStarttls (s : Ssl) (fd : Fd) (hostname : Option CString) (verify : Bool) (func : Client) :
    Ssl × Nat :=
  let conn := s.next
  let c : Scd := ⟨func, fd, false, verify && E.cafile, hostname, none, .other, none⟩
  ({ s with next := s.next + 1, timeouts := s.timeouts ++ [conn] }.set conn c, conn)

/-- `ssl_read` and `ssl_write`, with what they return. -/
def sslTransfer (s : Ssl) (conn : Nat) (r : Results) : Option (Ssl × Int) :=
  (s.heap conn).bind fun c ↦
    if ¬ c.established then some ({ s with sslErrno := .noHandshake }, -1)
    else c.ssl.map fun _ ↦
      if r.st ≤ 0 then
        let s := s.set conn { c with lasterr := r.error }
        ({ s with sslErrno := if r.error = Error.other then .ok else .again }, r.st)
      else ({ s with sslErrno := .ok }, r.st)

/-- What follows when the function of a client returns. -/
def resume (s : Ssl) : Frame → Option Ssl
  | .unverified conn source =>
      (if 0 ≤ source then s.proxyDisconnect source else some s).bind (·.sslConnFree conn)
  | .failed conn _ cb =>
      (s.sslDisconnect conn).bind fun s ↦ if cb then s.clearInpa conn else some s
  | .established conn cb => if cb then s.clearInpa conn else some s

/-! ## Runs -/

/-- What happens to the file. -/
inductive Event where
  /-- A call of `ssl_connect`. -/
  | connect (host : Option CString) (port : Int) (verify : Bool) (func : Client)
      (getaddrinfo : CString → Nat → List SockAddr) (attempt : List SockAddr → Attempt)
  /-- A call of `ssl_starttls`. -/
  | starttls (fd : Fd) (hostname : Option CString) (verify : Bool) (func : Client)
  /-- A call of `ssl_disconnect`. -/
  | disconnect (conn : Nat)
  /-- A call of `ssl_read` or `ssl_write`. -/
  | transfer (conn : Nat) (r : Results)
  /-- The function of a client returns. -/
  | returned
  /-- The descriptor of a watch of `proxy.c` is ready. -/
  | ready (tag : Nat) (a : Answers) (r : Results)
  /-- The descriptor of a watch for `ssl_handshake_cb` is ready. -/
  | woken (tag : Nat) (r : Results)
  /-- The timeout for `ssl_starttls_real` is over. -/
  | timeout (conn : Nat) (r : Results)
  /-- Another part of the program opens or closes a descriptor. -/
  | opened (fd : Fd)
  | closed (fd : Fd)

/-- One event.  All sources go when they have fired, as the functions return FALSE. -/
def step (s : Ssl) : Event → Option Ssl
  | .connect host port verify func getaddrinfo attempt =>
      (s.sslConnect E host port verify func getaddrinfo attempt).map Prod.fst
  | .starttls fd hostname verify func => some (s.sslStarttls E fd hostname verify func).1
  | .disconnect conn => (s.sslDisconnect conn).map (·.giveUp conn)
  | .transfer conn r => (s.sslTransfer conn r).map Prod.fst
  | .returned =>
      match s.frame with
      | none => some s
      | some f => { s with frame := none }.resume f
  | .ready tag a r =>
      if s.frame ≠ none then some s
      else
        (World.step E.conf s.proxy (.ready tag a)).bind fun w ↦
          match w.ended[s.proxy.ended.length]? with
          | some (_, .called conn source) => { s with proxy := w }.sslConnected E conn source r
          | _ => some { s with proxy := w }
  | .woken tag r =>
      if s.frame ≠ none then some s
      else
        match s.loop.gaimIoInvoke (fun fd ↦ fd ∈ s.proxy.openFds) tag with
        | .none => some s
        | .dropped => some (s.bEventRemove tag)
        | .call x => (s.bEventRemove tag).sslHandshakeCb x.closure x.fd r
  | .timeout conn r =>
      if s.frame ≠ none ∨ conn ∉ s.timeouts then some s
      else { s with timeouts := s.timeouts.erase conn }.sslStarttlsReal E conn r
  | .opened fd => some { s with proxy := s.proxy.socket fd }
  | .closed fd => some { s with proxy := s.proxy.closesocket fd }

end Ssl

end TelepathyFacebook
