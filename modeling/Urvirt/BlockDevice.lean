import Mathlib.Data.List.TakeWhile
import Urvirt.GuestCode
import Urvirt.Scatter

/-!
# The block device

A command copies 512 bytes between the image and the buffer, which is looked up in
the host address space. Where the guest's block goes depends on the arithmetic of
the offset, and where its buffer is depends on the pages mapped so far.
-/

namespace Urvirt

open Bitfield Rv64gc Transition Scatter

/-- The offset in RAM of the byte that the host map shows. -/
def Machine.hostRam (m : Machine) (a : Word) : Option ℕ :=
  match m.map (pageOf a) with
  | none => none
  | some page =>
    match page.back with
    | .ram off => some (off.toNat+a.toNat%4096)
    | _ => none

theorem hostByte_eq (m : Machine) (env : Host) (a : Word) : m.hostByte env a =
    if m.readable a then some (match m.hostRam a with | some o => m.ram o | none => env.own a)
    else none := by
  cases hp : m.map (pageOf a) with
  | none => simp [Machine.hostByte,Machine.readable,hp]
  | some page =>
    obtain ⟨back,prot⟩ := page
    cases back <;> simp [Machine.hostByte,Machine.readable,Machine.hostRam,hp]

/-- Where the bytes of a buffer are stored. -/
def Machine.place (m : Machine) (buf : Word) (j : ℕ) : Option ℕ := m.hostRam (buf+BitVec.ofNat 64 j)

section Store

variable {m m' : Machine} {buf : Word} {data : ℕ → BitVec 8} {n : ℕ}

theorem storeBytes_scatter (h : storeBytes m buf data n = .ok m') :
    m' = { m with ram := scatter (m.place buf) data m.ram n } := by
  induction n generalizing m' with
  | zero => cases h; rfl
  | succ n ih =>
    obtain ⟨m₁,h₁,h⟩ := bind_ok.mp h
    obtain rfl := ih h₁
    simp only [storeByte] at h
    cases hp : m.map (pageOf (buf+BitVec.ofNat 64 n)) with
    | none =>
      rw [hp] at h
      cases h
      simp only [scatter,Machine.place,Machine.hostRam,hp]
    | some page =>
      rw [hp] at h
      cases hb : page.back with
      | ram off =>
        simp only [hb] at h
        cases h
        simp only [scatter,Machine.place,Machine.hostRam,hp,hb]
      | _ => simp only [hb] at h; cases h

theorem storeBytes_of_place (h : ∀ j < n, m.place buf j ≠ none) :
    storeBytes m buf data n = .ok { m with ram := scatter (m.place buf) data m.ram n } := by
  have hok : ∃ m', storeBytes m buf data n = .ok m' := by
    induction n with
    | zero => exact ⟨m,rfl⟩
    | succ n ih =>
      obtain ⟨m₁,h₁⟩ := ih fun j hj => h j (Nat.lt_succ_of_lt hj)
      obtain rfl := storeBytes_scatter h₁
      have hn := h n (Nat.lt_succ_self n)
      simp only [storeBytes,h₁,bind,Except.bind,storeByte]
      simp only [Machine.place,Machine.hostRam] at hn
      split at hn
      · exact absurd rfl hn
      · split at hn
        · simp [*]
        · exact absurd rfl hn
  obtain ⟨m',hm⟩ := hok
  rw [hm,storeBytes_scatter hm]

end Store

section Count

variable {p : ℕ → Bool} {n : ℕ}

theorem leading_le (p : ℕ → Bool) (n : ℕ) : leading p n ≤ n := by
  rw [leading]
  exact (List.takeWhile_sublist _).length_le.trans_eq List.length_range

theorem leading_eq_iff : leading p n = n ↔ ∀ i < n, p i = true := by
  have hlen : (List.range n).length = n := List.length_range
  have hself : leading p n = n ↔ (List.range n).takeWhile p = List.range n := by
    rw [leading]
    constructor
    · intro h
      exact (List.takeWhile_sublist p).eq_of_length (h.trans hlen.symm)
    · intro h
      rw [h,hlen]
  rw [hself,List.takeWhile_eq_self_iff]
  simp only [List.mem_range]

theorem transferred_eq_iff {env : Host} : transferred env p n = n ↔ ∀ i < n, p i = true := by
  rw [← leading_eq_iff]
  have hle := leading_le p n
  simp only [transferred]
  split_ifs with h
  · simp [h]
  · constructor <;> intro h' <;> omega

theorem transferred_le (env : Host) (p : ℕ → Bool) (n : ℕ) : transferred env p n ≤ n := by
  have hle := leading_le p n
  simp only [transferred]
  split_ifs <;> omega

end Count

section Transfer

variable {env : Host} {m m' : Machine} {buf count offset : Word}

def preadCount (env : Host) (m : Machine) (buf count offset : Word) : ℕ :=
  if offset.msb then 0
  else transferred env (fun i => m.writable (buf+BitVec.ofNat 64 i))
    (min count.toNat (m.block.size-offset.toNat))

theorem sPread64_eq (env : Host) (m : Machine) (buf count offset : Word) :
    sPread64 env m buf count offset = storeBytes m buf
      (fun i => m.block.byte (offset.toNat+i)) (preadCount env m buf count offset) := by
  simp only [sPread64,preadCount]
  split_ifs <;> rfl

theorem preadCount_le (env : Host) (m : Machine) (buf count offset : Word) :
    preadCount env m buf count offset ≤ count.toNat := by
  simp only [preadCount]
  split_ifs
  · exact Nat.zero_le _
  · exact (transferred_le _ _ _).trans (Nat.min_le_left _ _)

theorem preadCount_eq_iff (env : Host) (m : Machine) (buf : Word) (hpos : 0 < count.toNat) (hmsb : offset.msb = false)
    (hsize : offset.toNat+count.toNat ≤ m.block.size) :
    preadCount env m buf count offset = count.toNat ↔
      ∀ i < count.toNat, m.writable (buf+BitVec.ofNat 64 i) = true := by
  have hmin : min count.toNat (m.block.size-offset.toNat) = count.toNat := by omega
  rw [preadCount,hmsb,if_neg Bool.false_ne_true,hmin]
  exact transferred_eq_iff

def pwriteCount (env : Host) (m : Machine) (buf count : Word) : ℕ :=
  transferred env (fun i => (m.hostByte env (buf+BitVec.ofNat 64 i)).isSome) count.toNat

def BlockImage.overwrite (b : BlockImage) (start n : ℕ) (data : ℕ → BitVec 8) : BlockImage where
  size := if n = 0 then b.size else max b.size (start+n)
  byte := fun i => if start ≤ i ∧ i < start+n then data (i-start) else b.byte i

theorem sPwrite64_eq (hmsb : offset.msb = false) : sPwrite64 env m buf count offset = { m with
    block := m.block.overwrite offset.toNat (pwriteCount env m buf count)
      fun j => (m.hostByte env (buf+BitVec.ofNat 64 j)).getD 0 } := by
  rw [sPwrite64,hmsb]
  rfl

end Transfer

def BlockImage.withByte (b : BlockImage) (i : ℕ) (v : BitVec 8) : BlockImage :=
  { b with byte := Function.update b.byte i v }

def Machine.withByte (m : Machine) (i : ℕ) (v : BitVec 8) : Machine :=
  { m with block := m.block.withByte i v }

theorem withByte_byte (m : Machine) (i : ℕ) (v : BitVec 8) : (m.withByte i v).block.byte i = v := by
  simp [Machine.withByte,BlockImage.withByte]

/-- The command leaves the byte of the image alone and does not look at it. -/
def Ignores (env : Host) (m : Machine) (data : Word) (i : ℕ) : Prop :=
  ∀ v, blockCommand env (m.withByte i v) data =
    (blockCommand env m data).map fun t => t.withByte i v

section Ignored

variable {env : Host} {m : Machine} {i : ℕ}

theorem storeByte_withByte (m : Machine) (a : Word) (x : BitVec 8) (v : BitVec 8) :
    storeByte (m.withByte i v) a x = (storeByte m a x).map fun t => t.withByte i v := by
  have hmap : (m.withByte i v).map = m.map := rfl
  simp only [storeByte,hmap]
  cases m.map (pageOf a) with
  | none => rfl
  | some page =>
    obtain ⟨back,prot⟩ := page
    cases back <;> rfl

theorem storeBytes_withByte {data data' : ℕ → BitVec 8} (buf : Word) (v : BitVec 8) {n : ℕ}
    (h : ∀ j < n, data' j = data j) : storeBytes (m.withByte i v) buf data' n =
      (storeBytes m buf data n).map fun t => t.withByte i v := by
  induction n with
  | zero => rfl
  | succ n ih =>
    rw [storeBytes,storeBytes,ih fun j hj => h j (Nat.lt_succ_of_lt hj)]
    cases storeBytes m buf data n with
    | error why => rfl
    | ok m₁ =>
      rw [h n (Nat.lt_succ_self n)]
      exact storeByte_withByte m₁ _ _ v

theorem sPread64_withByte {buf count offset : Word} (v : BitVec 8)
    (hout : offset.msb = true ∨ i < offset.toNat ∨ offset.toNat+count.toNat ≤ i) :
    sPread64 env (m.withByte i v) buf count offset =
      (sPread64 env m buf count offset).map fun t => t.withByte i v := by
  have hn : preadCount env (m.withByte i v) buf count offset = preadCount env m buf count offset := rfl
  rw [sPread64_eq,sPread64_eq,hn]
  refine storeBytes_withByte buf v fun j hj => Function.update_of_ne ?_ _ _
  rcases hout with hmsb | hout
  · rw [preadCount,if_pos hmsb] at hj
    omega
  · have hle := preadCount_le env m buf count offset
    omega

theorem BlockImage.overwrite_withByte (b : BlockImage) {start n : ℕ} (data : ℕ → BitVec 8)
    (v : BitVec 8) (hout : i < start ∨ start+n ≤ i) :
    (b.withByte i v).overwrite start n data = (b.overwrite start n data).withByte i v := by
  have hbyte : ((b.withByte i v).overwrite start n data).byte =
      ((b.overwrite start n data).withByte i v).byte := by
    funext k
    simp only [overwrite,withByte]
    by_cases hk : k = i
    · rw [hk,if_neg (by omega),Function.update_self,Function.update_self]
    · rw [Function.update_of_ne hk,Function.update_of_ne hk]
  rw [BlockImage.mk.injEq]
  exact ⟨rfl,hbyte⟩

theorem sPwrite64_withByte {buf count offset : Word} (v : BitVec 8)
    (hout : offset.msb = true ∨ i < offset.toNat ∨ offset.toNat+count.toNat ≤ i) :
    sPwrite64 env (m.withByte i v) buf count offset =
      (sPwrite64 env m buf count offset).withByte i v := by
  cases hmsb : offset.msb with
  | true => simp only [sPwrite64,hmsb,if_true]
  | false =>
    have hle : pwriteCount env m buf count ≤ count.toNat := transferred_le _ _ _
    have hout' : i < offset.toNat ∨ offset.toNat+pwriteCount env m buf count ≤ i := by
      rw [hmsb] at hout
      simp only [Bool.false_eq_true,false_or] at hout
      omega
    rw [sPwrite64_eq hmsb,sPwrite64_eq hmsb]
    exact congrArg (fun b => ({ m with block := b } : Machine))
      (m.block.overwrite_withByte _ v hout')

end Ignored

section Offset

variable {env : Host} {m : Machine} {data : Word} {i : ℕ}

/-- The offset of the block that the block id names, as the transfers get it. -/
def Machine.blockOffset (m : Machine) : Word := urvirtBlockSize*m.priv.urvbBlockId

theorem toNat_blockOffset (m : Machine) :
    m.blockOffset.toNat = 512*m.priv.urvbBlockId.toNat%2^64 := BitVec.toNat_mul _ _

theorem blockOffset_msb (m : Machine) :
    m.blockOffset.msb = m.priv.urvbBlockId.getLsbD 54 := by
  have hlt := m.priv.urvbBlockId.isLt
  rw [BitVec.msb_eq_decide,toNat_blockOffset,← BitVec.testBit_toNat,Nat.testBit_eq_decide_div_mod_eq]
  congr 1
  rw [eq_iff_iff]
  omega

theorem toNat_blockSize : urvirtBlockSize.toNat = 512 := rfl

theorem blockCommand_ignores (hout : m.blockOffset.msb = true ∨ i < m.blockOffset.toNat ∨
    m.blockOffset.toNat+512 ≤ i) : Ignores env m data i := by
  intro v
  have hsize : m.blockOffset.toNat+512 = m.blockOffset.toNat+urvirtBlockSize.toNat := rfl
  rw [hsize] at hout
  simp only [blockCommand]
  split_ifs
  · exact sPread64_withByte v hout
  · exact congrArg Except.ok (sPwrite64_withByte v hout)
  · rfl

/-- The transfer is a complete one: from within the image to memory of its own, or
from memory that can be read. -/
def TransfersAll (env : Host) (m : Machine) (data : Word) : Prop :=
  (data = urvirtBlockCmdRead ∧ 512*m.priv.urvbBlockId.toNat+512 ≤ m.block.size ∧
    (∀ j < 512, m.writable (m.priv.urvbBuf+BitVec.ofNat 64 j) = true) ∧
    ∃ g : ℕ → ℕ, (∀ j < 512, ∀ k < 512, g j = g k → j = k) ∧
      ∀ j < 512, m.place m.priv.urvbBuf j = some (g j)) ∨
  (data = urvirtBlockCmdWrite ∧
    ∀ j < 512, (m.hostByte env (m.priv.urvbBuf+BitVec.ofNat 64 j)).isSome = true)

def readCount (env : Host) (m : Machine) : ℕ :=
  preadCount env m m.priv.urvbBuf urvirtBlockSize m.blockOffset

def writeCount (env : Host) (m : Machine) : ℕ := pwriteCount env m m.priv.urvbBuf urvirtBlockSize

theorem readCount_le (env : Host) (m : Machine) : readCount env m ≤ 512 := by
  rw [← toNat_blockSize]
  exact preadCount_le _ _ _ _ _

theorem writeCount_le (env : Host) (m : Machine) : writeCount env m ≤ 512 := by
  rw [writeCount,pwriteCount,toNat_blockSize]
  exact transferred_le _ _ _

theorem blockCommand_read (env : Host) (m : Machine) :
    blockCommand env m urvirtBlockCmdRead = storeBytes m m.priv.urvbBuf
      (fun j => m.block.byte (m.blockOffset.toNat+j)) (readCount env m) :=
  sPread64_eq env m _ _ _

theorem blockCommand_write (env : Host) (hmsb : m.blockOffset.msb = false) :
    blockCommand env m urvirtBlockCmdWrite = .ok { m with
      block := m.block.overwrite m.blockOffset.toNat (writeCount env m)
        fun j => (m.hostByte env (m.priv.urvbBuf+BitVec.ofNat 64 j)).getD 0 } :=
  congrArg Except.ok (sPwrite64_eq hmsb)

theorem readCount_eq_iff (env : Host) (hmsb : m.blockOffset.msb = false)
    (hsize : m.blockOffset.toNat+512 ≤ m.block.size) : readCount env m = 512 ↔
      ∀ i < 512, m.writable (m.priv.urvbBuf+BitVec.ofNat 64 i) = true := by
  have hpos : 0 < urvirtBlockSize.toNat := by decide
  have h := preadCount_eq_iff env m m.priv.urvbBuf hpos hmsb
  rw [toNat_blockSize] at h
  exact h hsize

theorem writeCount_eq_iff (env : Host) (m : Machine) : writeCount env m = 512 ↔
    ∀ i < 512, (m.hostByte env (m.priv.urvbBuf+BitVec.ofNat 64 i)).isSome = true := by
  rw [writeCount,pwriteCount,toNat_blockSize]
  exact transferred_eq_iff

/-- A complete `READ` into memory of its own. -/
theorem read_done {g : ℕ → ℕ} (hcount : readCount env m = 512)
    (hinj : ∀ j < 512, ∀ k < 512, g j = g k → j = k)
    (hplace : ∀ j < 512, m.place m.priv.urvbBuf j = some (g j)) :
    ∃ t, blockCommand env m urvirtBlockCmdRead = .ok t ∧
      (∀ j < 512, t.ram (g j) = m.block.byte (m.blockOffset.toNat+j)) ∧
      (∀ o, (∀ j < 512, g j ≠ o) → t.ram o = m.ram o) ∧ t = { m with ram := t.ram } := by
  have hsome : ∀ k < 512, m.place m.priv.urvbBuf k ≠ none := fun k hk => by
    rw [hplace k hk]
    exact Option.some_ne_none _
  have hcmd := blockCommand_read env m
  rw [hcount,storeBytes_of_place hsome] at hcmd
  refine ⟨_,hcmd,fun j hj => scatter_of_injective hinj hplace hj,fun o ho => ?_,rfl⟩
  refine scatter_frame fun j hj hp => ho j hj ?_
  exact Option.some.inj ((hplace j hj).symm.trans hp)

theorem write_done (hmsb : m.blockOffset.msb = false) (hcount : writeCount env m = 512) :
    ∃ t, blockCommand env m urvirtBlockCmdWrite = .ok t ∧
      ∀ j < 512, t.block.byte (m.blockOffset.toNat+j) =
        (m.hostByte env (m.priv.urvbBuf+BitVec.ofNat 64 j)).getD 0 := by
  refine ⟨_,blockCommand_write env hmsb,fun j hj => ?_⟩
  rw [hcount]
  simp only [BlockImage.overwrite]
  rw [if_pos ⟨Nat.le_add_right _ _,Nat.add_lt_add_left hj _⟩,Nat.add_sub_cancel_left]

theorem exists_ne_byte (b : BitVec 8) : ∃ v, v ≠ b := by
  refine ⟨~~~b,fun h => ?_⟩
  have hb := congrArg (fun x => BitVec.getLsbD x 0) h
  simp at hb

theorem Ignores.ok {t t' : Machine} {v : BitVec 8} (h : Ignores env m data i)
    (ht : blockCommand env m data = .ok t) (ht' : blockCommand env (m.withByte i v) data = .ok t') :
    t' = t.withByte i v := by
  have hv := h v
  rw [ht,ht'] at hv
  exact Except.ok.inj hv

theorem write_touches (hmsb : m.blockOffset.msb = false) (hcount : writeCount env m = 512)
    {j : ℕ} (hj : j < 512) : ¬Ignores env m urvirtBlockCmdWrite (m.blockOffset.toNat+j) := by
  intro h
  obtain ⟨v,hv⟩ := exists_ne_byte ((m.hostByte env (m.priv.urvbBuf+BitVec.ofNat 64 j)).getD 0)
  obtain ⟨t,ht,-⟩ := write_done hmsb hcount
  obtain ⟨t',ht',hbyte⟩ := write_done (m:=m.withByte (m.blockOffset.toNat+j) v) hmsb hcount
  have hj' := hbyte j hj
  rw [h.ok ht ht'] at hj'
  exact hv ((withByte_byte t _ v).symm.trans hj')

theorem read_touches {g : ℕ → ℕ} (hcount : readCount env m = 512)
    (hinj : ∀ j < 512, ∀ k < 512, g j = g k → j = k)
    (hplace : ∀ j < 512, m.place m.priv.urvbBuf j = some (g j)) {j : ℕ} (hj : j < 512) :
    ¬Ignores env m urvirtBlockCmdRead (m.blockOffset.toNat+j) := by
  intro h
  obtain ⟨v,hv⟩ := exists_ne_byte (m.block.byte (m.blockOffset.toNat+j))
  obtain ⟨t,ht,hbyte,-⟩ := read_done hcount hinj hplace
  obtain ⟨t',ht',hbyte',-⟩ := read_done (m:=m.withByte (m.blockOffset.toNat+j) v) hcount hinj hplace
  have hj' := hbyte' j hj
  rw [h.ok ht ht'] at hj'
  exact hv ((withByte_byte m _ v).symm.trans (hj'.symm.trans (hbyte j hj)))

end Offset

def InBlock (id : Word) (i : ℕ) : Prop := 512*id.toNat ≤ i ∧ i < 512*id.toNat+512

/-- A command with the id touches bytes of its block only, and a complete transfer
touches all of them or no byte at all. -/
structure OwnBlock (id : Word) : Prop where
  only : ∀ env m data i, m.priv.urvbBlockId = id → ¬Ignores env m data i → InBlock id i
  whole : ∀ env m data, m.priv.urvbBlockId = id → TransfersAll env m data →
    (∀ i, Ignores env m data i) ∨ ∀ i, InBlock id i → ¬Ignores env m data i

/-- The offset of the block is not cut off, or is negative when it is. -/
def OffsetFits (id : Word) : Prop := id.toNat < 2^54 ∨ id.getLsbD 54 = true

section OwnBlock

variable {m : Machine}

theorem blockOffset_of_lt (h : m.priv.urvbBlockId.toNat < 2^54) :
    m.blockOffset.toNat = 512*m.priv.urvbBlockId.toNat ∧ m.blockOffset.msb = false := by
  have hoff := toNat_blockOffset m
  have hoff' : m.blockOffset.toNat = 512*m.priv.urvbBlockId.toNat := by omega
  refine ⟨hoff',?_⟩
  rw [BitVec.msb_eq_decide,decide_eq_false_iff_not,hoff']
  omega

theorem ownBlock_of_fits {id : Word} (h : OffsetFits id) : OwnBlock id := by
  by_cases hlt : id.toNat < 2^54
  · constructor
    · rintro env m data i rfl htouch
      obtain ⟨hoff,-⟩ := blockOffset_of_lt hlt
      by_contra hout
      refine htouch (blockCommand_ignores (.inr ?_))
      rw [hoff]
      simp only [InBlock] at hout
      omega
    · rintro env m data rfl htr
      obtain ⟨hoff,hmsb⟩ := blockOffset_of_lt hlt
      right
      rintro i ⟨hlo,hhi⟩
      obtain ⟨j,rfl⟩ := Nat.exists_eq_add_of_le hlo
      rw [← hoff]
      rcases htr with ⟨rfl,hsize,hwrite,g,hinj,hplace⟩ | ⟨rfl,hread⟩
      · rw [← hoff] at hsize
        exact read_touches ((readCount_eq_iff env hmsb hsize).mpr hwrite) hinj hplace (by omega)
      · exact write_touches hmsb ((writeCount_eq_iff env m).mpr hread) (by omega)
  · have hneg := h.resolve_left hlt
    have hall : ∀ env m data, m.priv.urvbBlockId = id → ∀ i, Ignores env m data i := by
      rintro env m data rfl i
      exact blockCommand_ignores (.inl ((blockOffset_msb m).trans hneg))
    exact ⟨fun env m data i hm htouch => absurd (hall env m data hm i) htouch,
      fun env m data hm _ => .inl (hall env m data hm)⟩

def openMachine (id : Word) : Machine :=
  { boot (smallData []) with
    map := fun _ => some ⟨.ram 0,protRwx⟩
    priv := { (boot (smallData [])).priv with urvbBlockId := id } }

theorem fits_of_ownBlock {id : Word} (h : OwnBlock id) : OffsetFits id := by
  by_contra hfits
  have hbig : ¬id.toNat < 2^54 := fun hlt => hfits (.inl hlt)
  have hmsb : (openMachine id).blockOffset.msb = false := by
    rw [blockOffset_msb]
    exact Bool.eq_false_of_not_eq_true fun hbit => hfits (.inr hbit)
  have hread : writeCount smallHost (openMachine id) = 512 :=
    (writeCount_eq_iff _ _).mpr fun _ _ => rfl
  have hin := h.only smallHost (openMachine id) _ _ rfl
    (write_touches hmsb hread (by decide : 0 < 512))
  have hoff : (openMachine id).blockOffset.toNat = 512*id.toNat%2^64 := toNat_blockOffset _
  have hlt : (openMachine id).blockOffset.toNat < 2^63 := by
    rw [BitVec.msb_eq_decide,decide_eq_false_iff_not] at hmsb
    omega
  simp only [InBlock] at hin
  omega

end OwnBlock

/-- A block id reaches its own block and no other byte of the image exactly when its
offset is not cut off to that of another block; ids of this kind do not meet. -/
theorem own_block_iff (id : Word) :
    (OwnBlock id ↔ id.toNat < 2^54 ∨ id.getLsbD 54 = true) ∧
    ∀ id', id' ≠ id → OwnBlock id → OwnBlock id' → ∀ env m data env' m' data' i,
      m.priv.urvbBlockId = id → m'.priv.urvbBlockId = id' →
      Ignores env m data i ∨ Ignores env' m' data' i := by
  refine ⟨⟨fits_of_ownBlock,ownBlock_of_fits⟩,?_⟩
  intro id' hne hown hown' env m data env' m' data' i hid hid'
  by_contra hboth
  obtain ⟨h₁,h₂⟩ := not_or.mp hboth
  have hin := hown.only env m data i hid h₁
  have hin' := hown'.only env' m' data' i hid' h₂
  simp only [InBlock] at hin hin'
  exact hne (BitVec.toNat_inj.mp (by omega))

/-- Blocks 3 and 5 do not meet. -/
theorem own_block_iff_small : OwnBlock 3 ∧ ∀ env m data env' m' data' i,
    m.priv.urvbBlockId = 3 → m'.priv.urvbBlockId = 5 →
    Ignores env m data i ∨ Ignores env' m' data' i := by
  have h₃ : OwnBlock 3 := (own_block_iff 3).1.mpr (.inl (by decide))
  have h₅ : OwnBlock 5 := (own_block_iff 5).1.mpr (.inl (by decide))
  exact ⟨h₃,(own_block_iff 3).2 5 (by decide) h₃ h₅⟩

/-- Its page, the page of the device and a page of RAM behind them. -/
def diskRam : Ram := poke 0x2010 0x200c00d7 (storeTables 0x4100017 storeRam)

def beforeStore (register data : Word) : Event :=
  .guest diskRam (smallRegs (kernelStart+16) data (storePage+register))

def storeTo (register data : Word) : List Event :=
  [beforeStore register data,.signal smallHost (.sigsegv (storePage+register))]

def diskSignal : Event := .signal smallHost (.sigsegv storePage)

/-- It has written its page to block 0, names block 2^55 and a buffer further on in its
page, and is about to store `WRITE`. -/
def wrapEvents : List Event :=
  storeUser 0x4100017 (kernelStart+16) 0 0++storeTo urvirtBlockBuf kernelStart++
    storeTo urvirtBlockCommand urvirtBlockCmdWrite++
    storeTo urvirtBlockBlockId 0x80000000000000++storeTo urvirtBlockBuf (kernelStart+12)++
    [beforeStore urvirtBlockCommand urvirtBlockCmdWrite]

def wrapMachine : Machine := smallAfter storeKernel wrapEvents

/-- The `WRITE` to block 2^55 overwrites block 0. -/
theorem block_id_wraps : ∃ m',
    Run Step (boot (smallData storeKernel)) wrapEvents wrapMachine ∧
    wrapMachine.priv.urvbBlockId = 0x80000000000000 ∧
    handler smallHost (.sigsegv storePage) wrapMachine = .ok m' ∧
    InBlock 0 0 ∧ wrapMachine.block.byte 0 = 0x73 ∧ m'.block.byte 0 = 0x83 ∧
    ¬OwnBlock 0x80000000000000 := by
  have hreplays : Replays storeKernel (wrapEvents++[diskSignal]) := by decide +kernel
  have hrun : Run Step (boot (smallData storeKernel)) wrapEvents wrapMachine :=
    small_run hreplays.left
  have hhandler : handler smallHost (.sigsegv storePage) wrapMachine =
      .ok (smallAfter storeKernel (wrapEvents++[diskSignal])) := small_signal hreplays
  have hid : wrapMachine.priv.urvbBlockId = 0x80000000000000 := by decide +kernel
  have hold : wrapMachine.block.byte 0 = 0x73 := by decide +kernel
  have hnew : (smallAfter storeKernel (wrapEvents++[diskSignal])).block.byte 0 = 0x83 := by
    decide +kernel
  -- in the handler's address space the command touches byte 0
  have hcount : writeCount smallHost (mapConf smallHost wrapMachine) = 512 :=
    (writeCount_eq_iff _ _).mpr (by decide +kernel)
  have hzero : (mapConf smallHost wrapMachine).blockOffset.toNat = 0 := by decide +kernel
  have hmsb : (mapConf smallHost wrapMachine).blockOffset.msb = false := by decide +kernel
  have htouch := write_touches hmsb hcount (by decide : 0 < 512)
  rw [hzero,Nat.add_zero] at htouch
  have hid' : (mapConf smallHost wrapMachine).priv.urvbBlockId = 0x80000000000000 := by
    decide +kernel
  refine ⟨smallAfter storeKernel (wrapEvents++[diskSignal]),hrun,hid,hhandler,
    ⟨by decide,by decide⟩,hold,hnew,fun hown => ?_⟩
  obtain ⟨hlo,-⟩ := hown.only smallHost (mapConf smallHost wrapMachine) _ 0 hid' htouch
  exact absurd hlo (by decide)

end Urvirt
