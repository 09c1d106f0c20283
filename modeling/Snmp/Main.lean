/-
  Snmp/Main.lean
  ==============
  **The program: an agent that serves the system group over UDP.**

  The program reads its options, opens a socket and answers one datagram after the other.
  Before each it brings the device up to date: the time since the host was started, the time
  since the agent was started, and fresh octets for salts.
-/
import Std.Async.UDP
import Snmp.CommandLine.Service

namespace Snmp.Program

open CommandLine

/-! ### Sockets -/

/-- The address of a socket at an endpoint; sockets know no zones. -/
def socketAddress (endpoint : Net.Endpoint) : Std.Net.SocketAddress :=
  match endpoint.address with
  | .v4 octets => .v4 ⟨⟨octets⟩, endpoint.port⟩
  | .v6 groups _ => .v6 ⟨⟨groups⟩, endpoint.port⟩

def endpointOf : Std.Net.SocketAddress → Net.Endpoint
  | .v4 address => ⟨.v4 address.addr.octets, address.port⟩
  | .v6 address => ⟨.v6 address.addr.segments 0, address.port⟩

def maxDatagram : UInt64 := 65535

/-! ### The device -/

def hostFiles : List String :=
  ["/etc/machine-id", "/var/lib/dbus/machine-id", "/proc/sys/kernel/hostname"]

/-- A file without the blanks around it, if it can be read and has anything else in it. -/
def readTrimmed? (path : String) : IO (Option String) := do
  try
    let text := (← IO.FS.readFile path).trimAscii.toString
    return if text.isEmpty then none else some text
  catch _ => return none

def hostEngineId : IO Usm.EngineId := do
  let names ← hostFiles.filterMapM readTrimmed?
  return .ofData (Text.Utf8.encode (names.headD "async-snmp-agent"))

/-- How many seconds the host has been up, or else its monotonic clock has been running. -/
def hostSeconds : IO UInt32 := do
  let text := (← readTrimmed? "/proc/uptime").getD ""
  match Text.numeral? (text.toList.takeWhile (·.isDigit)) with
  | some seconds => return .ofNat seconds
  | none => return .ofNat ((← IO.monoMsNow) / 1000)

/-- The device as it is now, for an agent that was started at `start`. -/
def refresh (start : Nat) (device : Device) : IO Device := do
  return { device with
    clock := ← hostSeconds
    upTime := (← IO.monoMsNow) - start
    entropy := (← IO.getRandomBytes 64).toList }

/-! ### Serving -/

def answer (socket : Std.Async.UDP.Socket) (server : Server (Agent.State Device))
    (datagram : Datagram) (state : Agent.State Device) : IO (Agent.State Device) := do
  let (outcome, state) := server.respond datagram state
  match outcome with
  | .silence => return state
  | .brokeDown cause =>
    IO.eprintln (Server.Fault.text ⟨0, datagram.source, cause.message⟩)
    return state
  | .reply octets =>
    let target := socketAddress datagram.source
    try (socket.send ⟨octets.toArray⟩ (some target)).block
    catch failure => IO.eprintln s!"I/O error communicating with {datagram.source}: {failure}"
    return state

partial def serve (socket : Std.Async.UDP.Socket) (server : Server (Agent.State Device))
    (start : Nat) (state : Agent.State Device) : IO Unit := do
  let (octets, source?) ← (socket.recv maxDatagram).block
  let some source := source? | serve socket server start state
  let state := { state with host := ← refresh start state.host }
  let state ← answer socket server ⟨octets.toList, endpointOf source⟩ state
  serve socket server start state

def run (service : Service) : IO Unit := do
  let socket ← Std.Async.UDP.Socket.mk
  socket.bind (socketAddress service.endpoint)
  let here := endpointOf (← socket.getSockName)
  IO.eprintln s!"asnmp-agent listening on {here}"
  serve socket service.server (← IO.monoMsNow) { host := service.device }

/-- Reads arguments and serves what they ask for; the answer is the exit code. -/
def start (arguments : List String) : IO UInt32 := do
  match Options.parse arguments with
  | .error .helpRequested =>
    IO.println Stop.helpRequested.message
    return 0
  | .error .versionRequested =>
    IO.println Stop.versionRequested.message
    return 0
  | .error stop =>
    IO.eprintln s!"error: {stop.message}"
    return 2
  | .ok options =>
    match options.service (← hostEngineId) 1 with
    | .error defect =>
      IO.eprintln s!"Error: {defect.message}"
      return 1
    | .ok service =>
      try
        run service
        return 0
      catch failure =>
        IO.eprintln s!"Error: I/O error communicating with {service.endpoint}: {failure}"
        return 1

end Snmp.Program

def main (arguments : List String) : IO UInt32 := Snmp.Program.start arguments
