import CoffeeChat.Core.Client
import CoffeeChat.Lib.Run
import Mathlib.Data.List.AList

/-!
# Connections over the event loop

`cim::base::TcpClient` of `base/tcp_client.cpp` with the map `g_conn_map` from descriptors to
clients, over the part of libuv it uses. A `World` holds the clients and the handles ever made,
each under its number; a handle that is not closing may have a socket, whose descriptor is one no
other open socket has.

libuv calls the connect callback of a started connect once, with `UV_ECANCELED` if the handle was
closed, and the read callback only on an open handle behind `uv_read_start`. `uv_fileno` fails on
a closing handle. An `Event` is a call of a client or a callback of libuv. What the connection
callback of the application does is a sequence of such calls, so `onConnect` ends where it invokes
that callback and `connectReturn` is what it does behind it. The assertions of `tcp_client.cpp` are
compiled in.

`CoffeeChat.TcpClient` is what the login session sees of a client, and `Net.TcpClient` the rest.
-/

namespace CoffeeChat.Net

open Lib

/-- `kInvalidSocket`. -/
def kInvalidSocket : Int := -1

/-- The error codes of libuv that occur. -/
def UV_EBADF : Int := -9

def UV_EMFILE : Int := -24

def UV_ECANCELED : Int := -89

/-- A `uv_tcp_t`: its socket, whether `uv_close` was called, whether the callback of a connect is
outstanding, whether `onConnect` is to start reading once the connection callback has returned,
and whether it reads. -/
structure Handle where
  fd : Option Int := none
  closing : Bool := false
  pending : Bool := false
  starting : Bool := false
  reading : Bool := false
  deriving DecidableEq, Repr

/-- The members of `TcpClient` that the connection depends on. -/
structure TcpClient where
  tcpHandle : Option Nat := none
  sockFd : Int := 0
  connectStatus : ConnectionStatus := .kDefault
  deriving DecidableEq, Repr

/-- The clients, the handles and `g_conn_map`. `alive` are the clients that were constructed and
not destroyed; `made` and `opened` are the numbers the next client and the next handle get. -/
structure World where
  client : Nat → TcpClient
  alive : Nat → Bool
  made : Nat
  handle : Nat → Handle
  opened : Nat
  gConnMap : AList fun _ : Int ↦ Nat

/-- What `loop_is_run_`, `uv_tcp_init`, `uv_ip4_addr` and `uv_tcp_connect` yield inside
`connect`, and the descriptor of the new socket. -/
structure Outcome where
  loopIsRun : Bool := true
  tcpInit : Int := 0
  ip4Addr : Int := 0
  tcpConnect : Int := 0
  fd : Int
  deriving DecidableEq, Repr

namespace World

/-- Before the first client. -/
def init : World where
  client _ := {}
  alive _ := false
  made := 0
  handle _ := {}
  opened := 0
  gConnMap := ∅

def setClient (w : World) (c : Nat) (t : TcpClient) : World :=
  { w with client := Function.update w.client c t }

def setHandle (w : World) (h : Nat) (hd : Handle) : World :=
  { w with handle := Function.update w.handle h hd }

/-! ## libuv -/

/-- An open socket has the descriptor. -/
def IsOpen (w : World) (fd : Int) : Prop := ∃ h < w.opened, (w.handle h).fd = some fd

instance (w : World) (fd : Int) : Decidable (w.IsOpen fd) :=
  inferInstanceAs (Decidable (∃ h < w.opened, (w.handle h).fd = some fd))

/-- `uv_close`: the socket is closed at once. -/
def uvClose (w : World) (h : Nat) : World :=
  w.setHandle h { w.handle h with fd := none, closing := true, reading := false }

/-- `uv_fileno`. -/
def uvFileno (w : World) (h : Nat) : Except Int Int :=
  match (w.handle h).fd with
  | some fd => if (w.handle h).closing then .error UV_EBADF else .ok fd
  | none => .error UV_EBADF

/-- `uv_tcp_connect`: a socket with a descriptor that is not open, and a connect on its way. A
descriptor that is taken is none the system gives. -/
def uvTcpConnect (w : World) (h : Nat) (os : Outcome) : Int × World :=
  if os.tcpConnect ≠ 0 then (os.tcpConnect, w)
  else if os.fd < 0 ∨ w.IsOpen os.fd then (UV_EMFILE, w)
  else (0, w.setHandle h { w.handle h with fd := some os.fd, pending := true })

/-- `uv_read_start`, which a closing handle refuses. -/
def uvReadStart (w : World) (h : Nat) : World :=
  if (w.handle h).closing then w else w.setHandle h { w.handle h with reading := true }

/-! ## `TcpClient` -/

/-- `TcpClient::TcpClient()`. -/
def construct (w : World) : World :=
  { w.setClient w.made {} with alive := Function.update w.alive w.made true, made := w.made + 1 }

/-- `TcpClient::close()`. -/
def close (w : World) (c : Nat) : World :=
  let t := w.client c
  let w := match t.tcpHandle with
    | some h => w.uvClose h
    | none => w
  let w := if t.sockFd ≠ kInvalidSocket then
      { w with gConnMap := w.gConnMap.erase t.sockFd }
    else w
  w.setClient c { t with tcpHandle := none, connectStatus := .kDisConnected }

/-- `malloc` of a handle and `uv_tcp_init`. -/
def openHandle (w : World) (c : Nat) : World :=
  { (w.setHandle w.opened {}).setClient c { w.client c with tcpHandle := some w.opened } with
    opened := w.opened + 1 }

/-- The members `connect` sets once `uv_tcp_connect` has returned 0 for the handle. -/
def register (w : World) (c h : Nat) : World :=
  let sockFd := match w.uvFileno h with
    | .ok fd => fd
    | .error _ => (w.client c).sockFd
  { w.setClient c { w.client c with sockFd } with gConnMap := w.gConnMap.insert sockFd c }

/-- `TcpClient::setConnectionStatus(status)`, up to the connection callback. -/
def setConnectionStatus (w : World) (c : Nat) (status : ConnectionStatus) : World :=
  w.setClient c { w.client c with connectStatus := status }

/-- `TcpClient::connect(serverIp, port)`. -/
def connect (w : World) (c : Nat) (os : Outcome) : Result (Bool × World) := do
  let w := w.close c
  check (os.loopIsRun = true)
  let h := w.opened
  let w := w.openHandle c
  if os.tcpInit = kInvalidSocket then return (false, w)
  else if os.ip4Addr = kInvalidSocket then return (false, w)
  else
    let w := w.setConnectionStatus c .kConnecting
    let (ret, w) := w.uvTcpConnect h os
    if ret = 0 then return (true, w.register c h)
    else return (false, w.close c)

/-- `g_conn_map` refers to the client. -/
def Registered (w : World) (c : Nat) : Prop := ∃ entry ∈ w.gConnMap.entries, entry.2 = c

instance (w : World) (c : Nat) : Decidable (w.Registered c) :=
  inferInstanceAs (Decidable (∃ entry ∈ w.gConnMap.entries, entry.2 = c))

/-- `TcpClient::~TcpClient()`. -/
def destruct (w : World) (c : Nat) : World :=
  { w.close c with alive := Function.update w.alive c false }

/-- `TcpClient::findTcpClient(handle)`. -/
def findTcpClient (w : World) (h : Nat) : Result (Option Nat) :=
  match w.uvFileno h with
  | .ok sockFd => .ok (w.gConnMap.lookup sockFd)
  | .error _ => .error .assertFailed -- `assert(uv_fileno(...) == 0)`

/-- What `onConnect` and `onRead` do with the client of a connection that is lost. -/
def lose (w : World) (tcpClient : Option Nat) : World :=
  match tcpClient with
  | some c => (w.close c).setConnectionStatus c .kDisConnected
  | none => w

/-- `TcpClient::onConnect(req, status)`, up to the connection callback. -/
def onConnect (w : World) (h : Nat) (status : Int) : Result World := do
  if status = 0 then
    let tcpClient ← w.findTcpClient h
    check (tcpClient.isSome = true)
    let w := match tcpClient with
      | some c => w.setConnectionStatus c .kConnectOk
      | none => w
    return w.setHandle h { w.handle h with starting := true }
  else
    let tcpClient ← w.findTcpClient h
    return w.lose tcpClient

/-- `TcpClient::onRead(client, nread, buf)`. The message callback has the data. -/
def onRead (w : World) (h : Nat) (nread : Int) : Result World :=
  if nread > 0 then do
    let _ ← w.findTcpClient h
    return w
  else if nread < 0 then do
    let tcpClient ← w.findTcpClient h
    return w.lose tcpClient
  else .ok w

end World

/-! ## Runs -/

/-- A call of a client, or a callback of libuv. -/
inductive Event where
  | construct
  | connect (c : Nat) (os : Outcome)
  | close (c : Nat)
  /-- The last reference to the client other than that of `g_conn_map` goes. -/
  | destroy (c : Nat)
  | onConnect (h : Nat) (status : Int)
  /-- The connection callback `onConnect` has invoked returns. -/
  | connectReturn (h : Nat)
  | onRead (h : Nat) (nread : Int)
  deriving DecidableEq, Repr

/-- libuv makes the call. -/
def Event.IsCallback : Event → Prop
  | .onConnect _ _ | .connectReturn _ | .onRead _ _ => True
  | _ => False

namespace World

/-- One event. A client that is not alive is not called, one the map refers to is not destroyed,
and libuv makes no callback that is not due. -/
def step (w : World) : Event → Result World
  | .construct => .ok w.construct
  | .connect c os =>
    if w.alive c then do
      let (_, w) ← w.connect c os
      return w
    else .ok w
  | .close c => .ok (if w.alive c then w.close c else w)
  | .destroy c => .ok (if w.alive c ∧ ¬ w.Registered c then w.destruct c else w)
  | .onConnect h status =>
    if (w.handle h).pending then
      let status := if (w.handle h).closing then UV_ECANCELED else status
      (w.setHandle h { w.handle h with pending := false }).onConnect h status
    else .ok w
  | .connectReturn h =>
    .ok (if (w.handle h).starting then
        (w.setHandle h { w.handle h with starting := false }).uvReadStart h
      else w)
  | .onRead h nread => if (w.handle h).reading then w.onRead h nread else .ok w

/-- The client whose `close()` an event runs, be it called or in `connect()` or the destructor. -/
def closer (w : World) : Event → Option Nat
  | .connect c _ | .close c => if w.alive c then some c else none
  | .destroy c => if w.alive c ∧ ¬ w.Registered c then some c else none
  | _ => none

end World

end CoffeeChat.Net
