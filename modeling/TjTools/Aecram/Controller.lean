/-
# The auxiliary embedded controller

What answers on the I/O ports of `src/aecram/driver/driver.c`.  A write to the address
port selects a register.  A write to the data port goes to the selected register: the
command register latches a command type, the register after it executes the latched
command on the byte written.  Types 0x10 and 0x11 set the low and the high byte of an
address, type 0x12 stores the byte there; a read of the data port after type 0x12
returns the byte stored there.  Anything else has no effect, or reads as 0xff.

`held address` is where one transfer leaves the registers, whatever they were before.
-/

import Mathlib.Logic.Function.Basic
import Mathlib.Data.Nat.Notation

namespace TjTools
namespace Aecram

/-- `struct aecram_config`: the ports on the host's side, and the command register on the
controller's, which is two bytes long. -/
structure Config where
  addrPort : UInt8
  dataPort : UInt8
  cmdReg : UInt8
  deriving DecidableEq, Repr

/-- `config_default` -/
def configDefault : Config := ⟨0x4e, 0x4f, 0x2e⟩

def cmdTypeOffsetLow : UInt8 := 0x10
def cmdTypeOffsetHigh : UInt8 := 0x11
def cmdTypeSelectValue : UInt8 := 0x12

structure Controller where
  /-- The selected register. -/
  select : UInt8
  /-- The latched command type. -/
  cmdType : UInt8
  addrLow : UInt8
  addrHigh : UInt8
  ram : UInt16 → UInt8

namespace Controller

def address (c : Controller) : UInt16 := UInt16.ofNat (c.addrHigh.toNat * 256 + c.addrLow.toNat)

/-- The latched command, executed on a byte. -/
def execute (arg : UInt8) (c : Controller) : Controller :=
  if c.cmdType = cmdTypeOffsetLow then { c with addrLow := arg }
  else if c.cmdType = cmdTypeOffsetHigh then { c with addrHigh := arg }
  else if c.cmdType = cmdTypeSelectValue then
    { c with ram := Function.update c.ram c.address arg }
  else c

/-- A write to a port. -/
def outb (value port : UInt8) (c : Controller) : Controller :=
  if port = configDefault.addrPort then { c with select := value }
  else if port = configDefault.dataPort then
    if c.select = configDefault.cmdReg then { c with cmdType := value }
    else if c.select = configDefault.cmdReg + 1 then c.execute value
    else c
  else c

/-- A read of a port. -/
def inb (port : UInt8) (c : Controller) : UInt8 :=
  if port = configDefault.dataPort ∧ c.select = configDefault.cmdReg + 1
      ∧ c.cmdType = cmdTypeSelectValue then c.ram c.address
  else 0xff

/-- The registers after a transfer at an address. -/
def held (address : UInt16) (c : Controller) : Controller :=
  { c with
    select := configDefault.cmdReg + 1
    cmdType := cmdTypeSelectValue
    addrHigh := ((address >>> 8) &&& 0xff).toUInt8
    addrLow := (address &&& 0xff).toUInt8 }

/-- The two address bytes of the driver put together again. -/
@[simp] theorem address_held (offset : UInt16) (c : Controller) :
    (c.held offset).address = offset := by
  have hlt := offset.toNat_lt
  have hmask : ∀ n : ℕ, n &&& 255 = n % 256 := fun n => Nat.and_two_pow_sub_one_eq_mod n 8
  have height : (8 : UInt16).toNat % 16 = 8 := rfl
  have hff : (0xff : UInt16).toNat = 255 := rfl
  have hhigh : (((offset >>> 8) &&& 0xff).toUInt8).toNat = offset.toNat / 256 := by
    rw [UInt16.toNat_toUInt8, UInt16.toNat_and, UInt16.toNat_shiftRight, height, hff, hmask,
      Nat.shiftRight_eq_div_pow]
    omega
  have hlow : ((offset &&& 0xff).toUInt8).toNat = offset.toNat % 256 := by
    rw [UInt16.toNat_toUInt8, UInt16.toNat_and, hff, hmask]
    omega
  have hsum : offset.toNat / 256 * 256 + offset.toNat % 256 = offset.toNat := by omega
  simp only [address, held, hhigh, hlow, hsum, UInt16.ofNat_toNat]

end Controller
end Aecram
end TjTools
