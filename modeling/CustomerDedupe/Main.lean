import CustomerDedupe.CommandLine.Reader
import CustomerDedupe.Log.Logger
import CustomerDedupe.Program
import CustomerDedupe.Rest.Conversation
import CustomerDedupe.Rest.Wire
import Std.Async.DNS
import Std.Async.Select
import Std.Async.Signal
import Std.Async.System
import Std.Async.TCP
import Std.Async.Timer
import Std.Time.Zoned

/-!
# The command line program

Connects the program with the world: the environment, files, the clock, the network and the
terminal. The network is reached without encryption; a server behind it has to be reached
through a local address.
-/

namespace CustomerDedupe.CommandLine

open Calendar (Instant)
open Std.Async (Async Selectable Selector)
open Rest (Conversation Delivery Message)

/-- The time. -/
def now : IO Instant := do
  let t ← Std.Time.PlainDateTime.now
  let date := t.date
  let time := t.time
  let read := Calendar.instantOf
    ⟨date.year.toInt, date.month.toNat, date.day.toNat⟩
    ⟨time.hour.toNat, time.minute.toNat, time.second.toNat, time.nanosecond.toNat⟩ 0
  pure (read.toOption.getD default)

/-- The time and a fresh identifier. -/
def moment : IO Moment := do
  let high ← IO.rand 0 (Nat.pow 2 64 - 1)
  let low ← IO.rand 0 (Nat.pow 2 64 - 1)
  pure ⟨← now, .random (high * Nat.pow 2 64 + low)⟩

/-- The environment. -/
def environment : IO Environment := do
  let snapshot ← Std.Async.System.getEnv
  pure fun name => snapshot.get? name

/-- The bytes of a file. -/
def fileBytes (path : String) : IO (Except FileProblem (List UInt8)) := do
  try
    let bytes ← IO.FS.readBinFile path
    pure (.ok bytes.toList)
  catch
    | .noFileOrDirectory _ _ _ => pure (.error .missing)
    | .inappropriateType _ _ _ => pure (.error .directory)
    | e => pure (.error (.other e.toString))

/-- The bytes that come from a connection until it is closed. -/
partial def receiveAll (socket : Std.Async.TCP.Socket.Client) (soFar : ByteArray) :
    Async ByteArray := do
  match ← socket.recv? 65536 with
  | some bytes => receiveAll socket (soFar ++ bytes)
  | none => pure soFar

/-- Sends bytes to a host and receives what it answers. -/
def exchangeBytes (host : String) (port : UInt16) (bytes : ByteArray) : Async ByteArray := do
  let addresses ← Std.Async.DNS.getAddrInfo host ""
  match addresses[0]? with
  | none => pure .empty
  | some address =>
    let socket ← Std.Async.TCP.Socket.Client.mk
    socket.connect (match address with
      | .v4 a => .v4 ⟨a, port⟩
      | .v6 a => .v6 ⟨a, port⟩)
    socket.send bytes
    receiveAll socket .empty

/-- Delivers a message. -/
def deliver (m : Message) : IO Delivery := do
  if !Rest.isShortUrl m.url then return .overlong
  if m.url.scheme != "http".toList then return .lost
  let host := String.ofList ((m.url.host.map Url.Host.chars).getD [])
  let port := UInt16.ofNat (m.url.port.getD 80)
  try
    let answer ← (exchangeBytes host port ⟨(Rest.Wire.request m).toArray⟩).asTask
    let deadline := (← IO.monoMsNow) + m.timeoutSeconds * 1000
    let mut left := true
    while left do
      if ← IO.hasFinished answer then left := false
      else if deadline ≤ (← IO.monoMsNow) then return .late
      else IO.sleep 10
    let bytes ← answer.block
    pure (Rest.Wire.delivery bytes.toList)
  catch _ => pure .lost

/-- Runs an action until all its messages have been answered; `world` is the world for some
answers, and `conversation` what has become of them. -/
partial def converse {σ α : Type} (world : Conversation → σ) (conversation : σ → Conversation)
    (a : Action σ α) (answers : List Delivery) : IO (Except Failure α × Session σ) := do
  let (r, s) := (ExceptT.run a).run ⟨world (.ofAnswers answers), []⟩
  match (conversation s.world).asked with
  | none => pure (r, s)
  | some m => converse world conversation a (answers ++ [← deliver m])

/-- Writes what has been written to the journal. -/
def publish (logger : Log.Logger) (journal : List Written) : IO Unit :=
  journal.reverse.forM fun
    | .line s => IO.println s
    | .complaint s => IO.eprintln s
    | .log e =>
      if logger.filter.admits e then do
        let time := (← now).text
        if logger.json then IO.println (Log.stampedJson time e).text
        else IO.println (Log.stampedLine time e)
      else pure ()

/-- A monitor with its feed. -/
abbrev Post :=
  Monitor.Watched (Feed.Kept Conversation)

/-- Runs an action of the monitor and publishes what it writes. -/
def Post.act (logger : Log.Logger) (p : Post) (a : Action Post Unit) : IO Post := do
  let world (c : Conversation) : Post := { p with outside := { p.outside with outside := c } }
  let (_, s) ← converse world (fun p => p.outside.outside) a []
  publish logger s.journal
  pure s.world

/-- Waits for an interrupt, at most for some seconds, and says whether it came. -/
def waitFor (signal : Std.Async.Signal.Waiter) (seconds : Nat) : IO Bool := do
  let sleep : Async (Selector Unit) := Selector.sleep (.ofNat (seconds * 1000))
  Async.block do
    Selectable.one #[.case signal.selector fun _ => pure true, .case (← sleep) fun _ => pure false]

/-- Watches until the interrupt. -/
partial def watch (logger : Log.Logger) (ex : Rest.Exchange Conversation) (s : Settings)
    (signal : Std.Async.Signal.Waiter) (p : Post) : IO Unit := do
  let clock := p.monitor.clock
  let seconds := (p.monitor.due?.getD (clock + 60)) - clock
  if ← waitFor signal seconds then discard (p.act logger Program.endWatch)
  else
    let m ← moment
    let p ← p.act logger (Monitor.advance (Program.outside ex m s) m seconds)
    watch logger ex s signal p

/-- Does what a command line asks for with a configuration, and says the program's code. -/
def serve (logger : Log.Logger) (inv : Invocation) (c : Config) : IO Nat := do
  let m ← moment
  match inv.command, Program.watcher c with
  | .monitor false, .ok user =>
    let (r, s) := (ExceptT.run (Program.prepare inv c)).run ⟨(), []⟩
    publish logger s.journal
    match r with
    | .ok (some c) =>
      let ex := c.connection.client.exchange Conversation.network
      let signal ← Std.Async.Signal.Waiter.mk .sigint false
      let p : Post := Program.watched c.settings user (Conversation.ofAnswers [])
      watch logger ex c.settings signal (← p.act logger (Program.beginWatch ex m c.settings))
      pure 0
    | _ => pure Program.refusedCode
  | _, _ =>
    let (r, s) ← converse id id (Program.run Conversation.network m inv c) []
    publish logger s.journal
    pure (r.toOption.getD Program.refusedCode)

/-- Runs the program with some arguments. -/
def execute (args : List String) : IO Nat := do
  match read args with
  | .error .helpWanted =>
    usage.forM IO.println
    pure 0
  | .error p =>
    IO.eprintln ("error: " ++ p.message)
    usage.forM IO.eprintln
    pure 2
  | .ok inv =>
    let env ← environment
    let file := inv.options.configFile
    match Config.ofFile env (← fileBytes file) with
    | .error f =>
      (Program.loadComplaints file f).forM IO.eprintln
      pure Program.refusedCode
    | .ok c =>
      let (logger, complaints) := Log.Logger.choose env inv.options c
      complaints.forM IO.eprintln
      serve logger inv c

end CustomerDedupe.CommandLine

/-- The program. -/
def main (args : List String) : IO UInt32 := do
  pure (UInt32.ofNat (← CustomerDedupe.CommandLine.execute args))
