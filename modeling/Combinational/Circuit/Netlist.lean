/-
This file lists the pins and gates of a circuit as text.
-/

import Combinational.Circuit.Basic

namespace Combinational

namespace Circuit

/-- The line of a netlist that defines a device. -/
def netlistLine (circuit : Circuit) (id : DeviceId) : String :=
  match circuit.devices[id.index]? with
  | some device => "\t" ++ id.text ++ " = " ++ device.text ++ "\n"
  | none => ""

/-- The summary, then a line for each input pin, gate and output pin, in this order. -/
def netlist (circuit : Circuit) : String :=
  circuit.summary ++ ":\n" ++
    String.join ((circuit.inputs ++ circuit.gates ++ circuit.outputs).toList.map
      circuit.netlistLine)

end Circuit

end Combinational
