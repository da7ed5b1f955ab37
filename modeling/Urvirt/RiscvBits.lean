import Urvirt.Bitfield

/-! Instruction fields, CSR numbers and the bit layouts of CSRs, page-table
entries and virtual addresses (`common/riscv-bits.h`, `common/common.h`). The two
macros `ins_bitfield` and `bitfield` both expand to `Bitfield.get`; the writers
of `bitfield` expand to `Bitfield.set`. -/
namespace Urvirt

abbrev Word := BitVec 64

def ramStart : Word := 0x80000000
def ramSize : Word := 16 <<< 20
def sigstackSize : Word := 4096
def kernelStart : Word := 0x80200000
def confSize : Word := 4096

def insOpcode (instr : BitVec 32) : BitVec 32 := Bitfield.get 0 7 instr
def insRd (instr : BitVec 32) : BitVec 32 := Bitfield.get 7 5 instr
def insFunct3 (instr : BitVec 32) : BitVec 32 := Bitfield.get 12 3 instr
def insRs1 (instr : BitVec 32) : BitVec 32 := Bitfield.get 15 5 instr
def insRs2 (instr : BitVec 32) : BitVec 32 := Bitfield.get 20 5 instr
def insFunct7 (instr : BitVec 32) : BitVec 32 := Bitfield.get 25 7 instr
def insCsr (instr : BitVec 32) : BitVec 32 := Bitfield.get 20 12 instr

def opcodeSystem : BitVec 32 := 0b1110011
def opcodeLoad : BitVec 32 := 0b0000011
def opcodeStore : BitVec 32 := 0b0100011
def opcodeAmo : BitVec 32 := 0b0101111

def funct7Wfi : BitVec 32 := 0b001000
def rs2Wfi : BitVec 32 := 0b00101
def funct7Sret : BitVec 32 := 0b0001000
def rs2Sret : BitVec 32 := 0b00010
def funct7SfenceVma : BitVec 32 := 0b0001001
def funct3NotCsr : BitVec 32 := 0b000

def csrUseUimm : BitVec 32 := 0b100
def csrOpMask : BitVec 32 := 0b011
def csrOpRw : BitVec 32 := 0b001
def csrOpRs : BitVec 32 := 0b010
def csrOpRc : BitVec 32 := 0b011

def csrSstatus : BitVec 32 := 0x100
def csrSie : BitVec 32 := 0x104
def csrStvec : BitVec 32 := 0x105
def csrSscratch : BitVec 32 := 0x140
def csrSepc : BitVec 32 := 0x141
def csrScause : BitVec 32 := 0x142
def csrStval : BitVec 32 := 0x143
def csrSip : BitVec 32 := 0x144
def csrSatp : BitVec 32 := 0x180

def privU : Word := 0x00
def privS : Word := 0x10

def stvecModeMask : Word := 0b11
def stvecDirect : Word := 0b00
def stvecVectored : Word := 0b01

def scauseIsInt : Word := 1 <<< 63
def scauseIllegal : Word := 2
def scauseUecall : Word := 8
def scauseInstrPf : Word := 12
def scauseLoadPf : Word := 13
def scauseStorePf : Word := 15
def scauseTimer : Word := scauseIsInt ||| 5

def maskSstatusSd : Word := Bitfield.mask 63 1
def maskSstatusMxr : Word := Bitfield.mask 19 1
def maskSstatusSum : Word := Bitfield.mask 18 1
def maskSstatusXs : Word := Bitfield.mask 15 2
def maskSstatusFs : Word := Bitfield.mask 13 2
def maskSstatusSpp : Word := Bitfield.mask 8 1
def maskSstatusSpie : Word := Bitfield.mask 5 1
def maskSstatusSie : Word := Bitfield.mask 1 1

def getSstatusSd (data : Word) : Word := Bitfield.get 63 1 data
def getSstatusXs (data : Word) : Word := Bitfield.get 15 2 data
def getSstatusFs (data : Word) : Word := Bitfield.get 13 2 data
def getSstatusSpp (data : Word) : Word := Bitfield.get 8 1 data
def getSstatusSpie (data : Word) : Word := Bitfield.get 5 1 data
def getSstatusSie (data : Word) : Word := Bitfield.get 1 1 data

def setSstatusSd (data field : Word) : Word := Bitfield.set 63 1 data field
def setSstatusXs (data field : Word) : Word := Bitfield.set 15 2 data field
def setSstatusFs (data field : Word) : Word := Bitfield.set 13 2 data field
def setSstatusSpp (data field : Word) : Word := Bitfield.set 8 1 data field
def setSstatusSpie (data field : Word) : Word := Bitfield.set 5 1 data field
def setSstatusSie (data field : Word) : Word := Bitfield.set 1 1 data field

def sstatusXsDirty : Word := 3
def sstatusSppS : Word := 1
def sstatusSppU : Word := 0

def sstatusWritableMask : Word :=
  maskSstatusMxr ||| maskSstatusSum ||| maskSstatusSpp ||| maskSstatusSpie ||| maskSstatusSie

def maskSixSti : Word := Bitfield.mask 5 1
def getSixSti (data : Word) : Word := Bitfield.get 5 1 data
def setSixSti (data field : Word) : Word := Bitfield.set 5 1 data field

def sixWritableMask : Word := maskSixSti

def getSatpPpn (data : Word) : Word := Bitfield.get 0 44 data
def getSatpAsid (data : Word) : Word := Bitfield.get 44 16 data
def getSatpMode (data : Word) : Word := Bitfield.get 60 4 data
def setSatpAsid (data field : Word) : Word := Bitfield.set 44 16 data field

def satpModeBare : Word := 0
def satpModeSv39 : Word := 8

def getPteFlags (data : Word) : Word := Bitfield.get 0 8 data
def getPtePpn (data : Word) : Word := Bitfield.get 10 44 data

def pteV : Word := 1 <<< 0
def pteR : Word := 1 <<< 1
def pteW : Word := 1 <<< 2
def pteX : Word := 1 <<< 3
def pteU : Word := 1 <<< 4

/-- The source numbers the fields from the top: `va_ppn0` is VPN[2]. -/
def getVaPpn0 (data : Word) : Word := Bitfield.get 30 9 data
def getVaPpn1 (data : Word) : Word := Bitfield.get 21 9 data
def getVaPpn2 (data : Word) : Word := Bitfield.get 12 9 data
def getVaOff (data : Word) : Word := Bitfield.get 0 12 data

def rvcLooksLikeLoad (instr : BitVec 16) : Bool :=
  let op := instr &&& 0b11
  let funct3 := instr >>> 13
  (op = 0b00 || op = 0b10) && (funct3 = 0b001 || funct3 = 0b010 || funct3 = 0b011)

def rvcLooksLikeStore (instr : BitVec 16) : Bool :=
  let op := instr &&& 0b11
  let funct3 := instr >>> 13
  (op = 0b00 || op = 0b10) && (funct3 = 0b101 || funct3 = 0b110 || funct3 = 0b111)

end Urvirt
