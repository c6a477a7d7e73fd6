import K64Gateway.Lib.Cursor
import K64Gateway.Sdccp.Dlt645Accept

/-
  A packet of the gateway comes back through its own receiver: `vCreatePaket` writes it into a
  static buffer of 64 bytes, `Dlt645_PutBytes` gets it behind the bytes 0xFE that wake a line up.

  Proved: with at most 52 data bytes the writes stay in the buffer (`vCreatePaketInto_eq`), and the
  package that is handed to `Dlt645_ParsePack` has the address, the control byte, the length and
  the data that the packet was made of (`vCreatePaket_roundTrip`).
-/

namespace K64Gateway.Dlt645

open Cursor Reading
open VarManage (Dlt645Addr)

/-! ## The writes of `vCreatePaket` -/

/-- `static mdBYTE buf[64]`; the packet before is still in it. -/
structure PaketBuf where
  bytes : List UInt8
  length_bytes : bytes.length = 64

/-- `if((xDataLen > 0) && (pData!=NULL)) memcpy(&buf[index],pData,xDataLen);` -/
def putData (pData : List UInt8) (o : Out UInt8) : Option (Out UInt8) :=
  if 0 < pData.length then o.puts pData else some o

/-- `vCreatePaket`: the buffer after it, and `*pPacketLen`. -/
def vCreatePaketInto (xAddr : Dlt645Addr) (xCon : UInt8) (pData buf : List UInt8) :
    Option (List UInt8 × UInt8) := do
  let o ← (⟨buf, 0⟩ : Out UInt8).put dlt645Pre
  let o ← o.puts (addrBytes xAddr)
  let o ← o.put dlt645Pre
  let o ← o.put xCon
  let o ← o.put (UInt8.ofNat pData.length)
  let o ← putData pData o
  let o ← o.put (checkSum (o.buf.take o.index))
  let o ← o.put dlt645Eom
  some (o.buf, UInt8.ofNat o.index)

theorem putData_eq (pData : List UInt8) (o : Out UInt8) : putData pData o = o.puts pData := by
  cases pData with
  | nil => rfl
  | cons d pData => exact if_pos (Nat.succ_pos _)

/-- The writes up to the check are the head of the frame. -/
theorem puts_frameHead (xAddr : Dlt645Addr) (xCon : UInt8) (pData : List UInt8) (o : Out UInt8) :
    o.puts (frameHead xAddr xCon pData) = (do
      let o ← o.put dlt645Pre
      let o ← o.puts (addrBytes xAddr)
      let o ← o.put dlt645Pre
      let o ← o.put xCon
      let o ← o.put (UInt8.ofNat pData.length)
      putData pData o) := by
  have hthree : [dlt645Pre, xCon, UInt8.ofNat pData.length] =
      [dlt645Pre] ++ [xCon] ++ [UInt8.ofNat pData.length] := rfl
  unfold frameHead
  rw [hthree]
  simp only [Out.puts_append, Out.puts_singleton, putData_eq, Option.bind_eq_bind,
    Option.bind_assoc]

theorem vCreatePaketInto_eq (xAddr : Dlt645Addr) (xCon : UInt8) {pData : List UInt8}
    (h : pData.length ≤ 52) (buf : PaketBuf) :
    vCreatePaketInto xAddr xCon pData buf.bytes =
      some (vCreatePaket xAddr xCon pData ++ buf.bytes.drop (pData.length + 12),
        UInt8.ofNat (pData.length + 12)) := by
  have hbuf := buf.length_bytes
  have hhead := length_frameHead xAddr xCon pData
  have hputs := Out.puts_eq [] buf.bytes (frameHead xAddr xCon pData) (by omega)
  have hlast := Out.puts_eq (frameHead xAddr xCon pData) (buf.bytes.drop (pData.length + 10))
    [checkSum (frameHead xAddr xCon pData), dlt645Eom] (by
      rw [List.length_drop]
      have h2 : [checkSum (frameHead xAddr xCon pData), dlt645Eom].length = 2 := rfl
      omega)
  rw [List.nil_append, List.nil_append, List.length_nil, Nat.zero_add, hhead] at hputs
  rw [hhead, List.drop_drop] at hlast
  have hrun : vCreatePaketInto xAddr xCon pData buf.bytes =
      ((⟨buf.bytes, 0⟩ : Out UInt8).puts (frameHead xAddr xCon pData)).bind fun o =>
        (o.puts [checkSum (o.buf.take o.index), dlt645Eom]).bind fun o =>
          some (o.buf, UInt8.ofNat o.index) := by
    simp only [vCreatePaketInto, puts_frameHead, Out.puts, Option.bind_eq_bind, Option.bind_assoc,
      Option.bind_some]
  rw [hrun, hputs, Option.bind_some]
  dsimp only
  rw [List.take_left' hhead, hlast, Option.bind_some]
  rfl

/-! ## The round trip -/

/-- Behind any number of bytes 0xFE the receiver takes the packet for what it was made of. -/
theorem vCreatePaket_roundTrip (xAddr : Dlt645Addr) (xCon : UInt8) {pData : List UInt8}
    (h : pData.length ≤ 52) (buf : PaketBuf) :
    ∃ out len, vCreatePaketInto xAddr xCon pData buf.bytes = some (out, len) ∧
      ∀ (k : Nat) (mem : Nat → UInt8) (usBytesLen : UInt16),
        block mem usBytesLen = List.replicate k 0xFE ++ out.take len.toNat →
          ∃ p, (putBytes usBytesLen).val mem = some p ∧ p.xAddr = xAddr ∧ p.xCon = xCon ∧
            p.btLen.toNat = pData.length ∧ bytesAt mem p.pData p.btLen.toNat = pData := by
  refine ⟨_, _, vCreatePaketInto_eq xAddr xCon h buf, fun k mem usBytesLen hblock => ?_⟩
  have hlen : (UInt8.ofNat (pData.length + 12)).toNat = (vCreatePaket xAddr xCon pData).length := by
    rw [UInt8.toNat_ofNat', length_vCreatePaket]
    exact Nat.mod_eq_of_lt (by omega)
  rw [hlen, List.take_left] at hblock
  have hfront : dlt645Pre ∉ List.replicate k (0xFE : UInt8) := by
    intro hmem
    exact absurd (List.eq_of_mem_replicate hmem) (by decide)
  obtain ⟨p, hput, haddr, hcon, hbtLen, hdata⟩ := putBytes_frame hfront hblock
  have hL : p.btLen.toNat = pData.length := by
    rw [hbtLen, UInt8.toNat_ofNat']
    exact Nat.mod_eq_of_lt (by omega)
  exact ⟨p, hput, haddr, hcon, hL, by rw [hL]; exact hdata⟩

/-- The request for the voltage of phase A, behind four bytes 0xFE. -/
theorem vCreatePaket_roundTrip_voltage :
    let xAddr : Dlt645Addr := ⟨0x12, 0x34, 0x56, 0x78, 0x90, 0x1A⟩
    let pData : List UInt8 := [0x33, 0x34, 0x34, 0x35]
    let bytes := List.replicate 4 0xFE ++ vCreatePaket xAddr conReadData pData
    pData.length ≤ 52 ∧ ∃ p, (putBytes 20).val (memOf bytes) = some p ∧ p.xAddr = xAddr ∧
      p.xCon = conReadData ∧ p.btLen.toNat = 4 ∧
        bytesAt (memOf bytes) p.pData p.btLen.toNat = pData := by
  intro xAddr pData bytes
  have hlen : pData.length ≤ 52 := by decide
  refine ⟨hlen, ?_⟩
  obtain ⟨out, len, hout, hround⟩ := vCreatePaket_roundTrip xAddr conReadData hlen
    ⟨List.replicate 64 0, List.length_replicate⟩
  refine hround 4 (memOf bytes) 20 ?_
  have heq := hout.symm.trans (vCreatePaketInto_eq xAddr conReadData (by decide) _)
  rw [Option.some.injEq, Prod.mk.injEq] at heq
  rw [heq.1, heq.2]
  decide

end K64Gateway.Dlt645
