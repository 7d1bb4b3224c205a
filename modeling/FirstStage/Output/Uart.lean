import FirstStage.Utf8

/-! # The serial console

A transmitter behind eight ports. A byte is sent only after a status read has shown the
transmitter empty, and a line feed is sent as carriage return and line feed. Before `init` the
ports are left alone.
-/

namespace FirstStage

inductive PortEvent where
  | out (port : UInt16) (value : UInt8)
  | inp (port : UInt16) (value : UInt8)
  deriving DecidableEq

structure Uart where
  port : UInt16
  ready : Bool := false
  deriving DecidableEq

namespace Uart

/-- The status bit of an empty transmitter. -/
def transmitterEmpty : UInt8 := 0x20

def statusPort (uart : Uart) : UInt16 := uart.port + 5

/-- A carriage return goes in front of every line feed. -/
def wire : List UInt8 → List UInt8
  | [] => []
  | b :: rest => if b = 0x0A then 0x0D :: b :: wire rest else b :: wire rest

theorem wire_append (first second : List UInt8) :
    wire (first ++ second) = wire first ++ wire second := by
  induction first with
  | nil => rfl
  | cons b rest ih =>
      simp only [List.cons_append, wire, ih]
      split <;> rfl

/-- 115200 baud, eight data bits, no parity, one stop bit; queues on, interrupts off. -/
def init (uart : Uart) : List PortEvent × Uart :=
  ([ .out (uart.port + 1) 0x00,
     .out (uart.port + 3) 0x80,
     .out uart.port 0x01,
     .out (uart.port + 1) 0x00,
     .out (uart.port + 3) 0x03,
     .out (uart.port + 2) 0xC7,
     .out (uart.port + 4) 0x03 ],
   { uart with ready := true })

/-- Status reads until one shows the transmitter empty, and the replies left after them. A line
with no more replies reads as empty. -/
def poll (uart : Uart) : (replies : List UInt8) → List PortEvent × List UInt8
  | [] => ([.inp uart.statusPort transmitterEmpty], [])
  | reply :: rest =>
      if reply &&& transmitterEmpty = 0 then
        let (events, left) := poll uart rest
        (.inp uart.statusPort reply :: events, left)
      else ([.inp uart.statusPort reply], rest)

/-- Sends bytes as they are, one poll before each. -/
def send (uart : Uart) : (bytes replies : List UInt8) → List PortEvent
  | [], _ => []
  | b :: rest, replies =>
      if uart.ready then
        let (events, left) := uart.poll replies
        events ++ .out uart.port b :: uart.send rest left
      else uart.send rest replies

/-- What the console is asked to do, with the status replies it will meet. -/
inductive Request where
  | init
  | byte (value : UInt8) (replies : List UInt8)
  | text (text : String) (replies : List UInt8)

def serve (uart : Uart) : Request → List PortEvent × Uart
  | .init => uart.init
  | .byte value replies => (uart.send [value] replies, uart)
  | .text text replies => (uart.send (wire (utf8 text)) replies, uart)

/-- The events of each request in turn. -/
def serveAll (uart : Uart) : List Request → List (List PortEvent)
  | [] => []
  | request :: rest =>
      let (events, next) := uart.serve request
      events :: next.serveAll rest

end Uart

end FirstStage
