import Microkernel.Executor
import Microkernel.Lib.Cyclic

/-! The scheduler and the handlers of the timer, the devices and the faults.  A handler takes the
stack pointer of the frame that its wrapper pushed and returns the stack pointer that the wrapper
loads. -/

namespace Microkernel

open Lib

namespace Kernel

/-! ### The scheduler -/

/-- `tasks[i]`, which panics out of range. -/
def taskAt (i : Nat) (k : Kernel) : Except Stop TaskRef :=
  match k.taskList[i]? with
  | some t => .ok t
  | none => .error .panics

/-- `a % b`, which panics for a zero divisor. -/
def checkedRem (a b : UInt64) : Except Stop UInt64 := if b = 0 then .error .panics else .ok (a % b)

/-- The loop of `schedule_next` that looks for the next process that is `Ready`. -/
def findReady (k : Kernel) : Nat → Nat → Except Stop Nat
  | 0, nextIdx => .ok nextIdx
  | fuel + 1, nextIdx => do
    let t ← k.taskAt nextIdx
    if (k.task t).state = .ready then
      .ok nextIdx
    else
      findReady k fuel ((nextIdx + 1) % k.taskList.length)

/-- `schedule_next`: the stack pointer to return to, which is `currentRsp` unless the processor
goes to another task. -/
def scheduleNext (currentRsp : UInt64) (forceSwitch : Bool) (k : Kernel) :
    Except Stop (UInt64 × Kernel) :=
  if k.isHeld .taskList then
    .ok (currentRsp, k)
  else if 1 ≤ k.taskList.length then do
    let oldIdx := k.currentTaskIdx
    let oldTask ← k.taskAt oldIdx
    let isTerminated := (k.task oldTask).state = .terminated
    let priority := max (k.task oldTask).priority 1
    let slice ← checkedRem k.tickCount priority
    if slice = 0 ∨ isTerminated ∨ forceSwitch then do
      let nextIdx ← k.findReady k.taskList.length ((oldIdx + 1) % k.taskList.length)
      let nextTask ← k.taskAt nextIdx
      if nextIdx ≠ oldIdx ∨ isTerminated then
        let k := { k with
          currentTaskIdx := nextIdx
          currentTaskId := (k.task nextTask).id.val }
        let k := k.modifyTask oldTask fun task => { task with kernelRsp := currentRsp }
        let k := { k with rsp0 := (k.task nextTask).kernelStackTop }
        .ok ((k.task nextTask).kernelRsp, k)
      else
        .ok (currentRsp, k)
    else
      .ok (currentRsp, k)
  else
    .ok (currentRsp, k)

/-! ### The timer -/

def timerHandlerInner (scripts : List PollScript) (currentRsp : UInt64) (k : Kernel) :
    Except Stop (UInt64 × Kernel) := do
  let k ← k.pollKernelTasks scripts
  scheduleNext currentRsp false { k with tickCount := k.tickCount + 1 }

/-! ### Faults -/

/-- What the fault handlers share: the current process is killed, and the processor leaves it. -/
def faultHandlerInner (currentRsp : UInt64) (k : Kernel) : Except Stop (UInt64 × Kernel) := do
  let k ←
    if k.isHeld .taskList then
      .ok k
    else do
      let t ← k.taskAt k.currentTaskIdx
      .ok (k.setState t .terminated)
  scheduleNext currentRsp true k

def gpfHandlerInner (currentRsp : UInt64) (k : Kernel) : Except Stop (UInt64 × Kernel) :=
  faultHandlerInner currentRsp k

def pageFaultHandlerInner (currentRsp : UInt64) (k : Kernel) : Except Stop (UInt64 × Kernel) :=
  faultHandlerInner currentRsp k

/-! ### Devices -/

/-- The message that a device handler posts for a byte read from its port. -/
def deviceMessage (label : UInt64) (data : UInt8) : Message := ⟨0, 1, label, (data.toUInt64, 0)⟩

def postInitMailbox (m : Message) (k : Kernel) : Kernel :=
  if k.isHeld .initMailbox then k else { k with initMailbox := some m }.observe (.posted m)

/-- What the device handlers share: the byte is posted with the device's label. -/
def deviceHandlerInner (label : UInt64) (data : UInt8) (scripts : List PollScript) (rsp : UInt64)
    (k : Kernel) : Except Stop (UInt64 × Kernel) := do
  let k ← (k.postInitMailbox (deviceMessage label data)).pollKernelTasks scripts
  .ok (rsp, k)

def keyboardHandlerInner (data : UInt8) (scripts : List PollScript) (rsp : UInt64) (k : Kernel) :
    Except Stop (UInt64 × Kernel) :=
  deviceHandlerInner 2 data scripts rsp k

def serialHandlerInner (data : UInt8) (scripts : List PollScript) (rsp : UInt64) (k : Kernel) :
    Except Stop (UInt64 × Kernel) :=
  deviceHandlerInner 3 data scripts rsp k

end Kernel

end Microkernel
