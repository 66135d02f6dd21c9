import X11Os.Arch.KernelAccess
import X11Os.Process.Population

/-!
# The image writer

The backend that writes the bytes of an image to frames, through the direct map (`arch/x86_64/image_writer.rs`).  It
refuses an empty range and every range whose address overflows; on a frame that the direct map reaches it performs
every other write that stays inside the page, and nothing else (`copyIntoPage_runs`, `zeroPageRange_runs`).
-/

namespace X11Os

open Word Amd64 Exec MappedMemory

inductive ImageWriteError where
  | addressOverflow
  | emptyRange
deriving DecidableEq, Repr

namespace X86ImagePageWriter

variable (mapping : PhysicalMemoryMapping)

/-- `usize::MAX as u64`. -/
def usizeMax : U64 := BitVec.allOnes 64

def mappedAddress (physicalAddress : U64) (pageOffset length : Nat) : Except ImageWriteError U64 :=
  if length = 0 then .error .emptyRange
  else
    match checkedAdd physicalAddress (BitVec.ofNat 64 pageOffset) with
    | none => .error .addressOverflow
    | some physicalStart =>
      match checkedAdd physicalStart (BitVec.ofNat 64 length) with
      | none => .error .addressOverflow
      | some physicalEnd =>
        match mapping.translate physicalStart with
        | none => .error .addressOverflow
        | some virtualStart =>
          match mapping.translate physicalEnd with
          | none => .error .addressOverflow
          | some virtualEnd =>
            -- the end is compared with `usize::MAX + 1`, saturated
            if virtualEnd < virtualStart ∨ virtualStart > usizeMax ∨ virtualEnd > usizeMax then
              .error .addressOverflow
            else .ok virtualStart

def writer : ImagePageWriter KernelMemory ImageWriteError where
  copyIntoPage physicalAddress pageOffset bytes := do
    let destination ← orThrow id (mappedAddress mapping physicalAddress pageOffset bytes.length)
    kernelStore destination bytes
  zeroPageRange physicalAddress pageOffset length := do
    let destination ← orThrow id (mappedAddress mapping physicalAddress pageOffset length)
    kernelStore destination (List.replicate length 0)

section Frame

variable {d : DirectMap} {s : KernelMemory} {p : U64} {pageOffset length : Nat} (hp : IsFrame p)
  (hreached : p.toNat < d.limit)
include hp hreached

private theorem mappedAddress_eq_ok (hlength : length ≠ 0) (hfit : pageOffset + length ≤ 4096) :
    mappedAddress ⟨d.offset⟩ p pageOffset length = .ok (d.offset + p + BitVec.ofNat 64 pageOffset) := by
  have halign := hp.1
  have hfits := d.fits
  have hwhole := d.whole
  have hoffset : (BitVec.ofNat 64 pageOffset).toNat = pageOffset := by
    rw [BitVec.toNat_ofNat]
    omega
  have hlen : (BitVec.ofNat 64 length).toNat = length := by
    rw [BitVec.toNat_ofNat]
    omega
  have hstart := checkedAdd_of_lt (a := p) (b := BitVec.ofNat 64 pageOffset) (by omega)
  have hs := checkedAdd_eq_some.mp hstart
  have hend := checkedAdd_of_lt (a := p + BitVec.ofNat 64 pageOffset) (b := BitVec.ofNat 64 length) (by omega)
  have he := checkedAdd_eq_some.mp hend
  have hvs : PhysicalMemoryMapping.translate ⟨d.offset⟩ (p + BitVec.ofNat 64 pageOffset) =
      some (d.offset + (p + BitVec.ofNat 64 pageOffset)) := checkedAdd_of_lt (a := d.offset) (by omega)
  have hve : PhysicalMemoryMapping.translate ⟨d.offset⟩ (p + BitVec.ofNat 64 pageOffset + BitVec.ofNat 64 length) =
      some (d.offset + (p + BitVec.ofNat 64 pageOffset + BitVec.ofNat 64 length)) :=
    checkedAdd_of_lt (a := d.offset) (by omega)
  have hvs' := checkedAdd_eq_some.mp hvs
  have hve' := checkedAdd_eq_some.mp hve
  have hmax : ∀ a : U64, ¬ a > usizeMax := by
    intro a hgt
    have hle := a.isLt
    have hlt : usizeMax.toNat < a.toNat := hgt
    rw [usizeMax, BitVec.toNat_allOnes] at hlt
    omega
  have horder : ¬ (d.offset + (p + BitVec.ofNat 64 pageOffset + BitVec.ofNat 64 length) <
      d.offset + (p + BitVec.ofNat 64 pageOffset)) := by
    rw [BitVec.lt_def]
    omega
  simp only [mappedAddress, hlength, if_false, hstart, hend, hvs, hve, horder, hmax, or_self]
  rw [BitVec.add_assoc]

variable (hstable : d.StableOn s (Within p 4096))
include hstable

theorem copyIntoPage_runs {bytes : List U8} (hbytes : bytes ≠ []) (hfit : pageOffset + bytes.length ≤ 4096) :
    Runs ((writer ⟨d.offset⟩).copyIntoPage p pageOffset bytes) s ()
      { s with memory := copyBytes s.memory (p + BitVec.ofNat 64 pageOffset) bytes } :=
  .bind (.orThrow (mappedAddress_eq_ok hp hreached (fun h => hbytes (List.length_eq_zero_iff.mp h)) hfit))
    (DirectMap.frame_store_runs hp hreached hstable hfit)

theorem zeroPageRange_runs (hlength : length ≠ 0) (hfit : pageOffset + length ≤ 4096) :
    Runs ((writer ⟨d.offset⟩).zeroPageRange p pageOffset length) s ()
      { s with memory := copyBytes s.memory (p + BitVec.ofNat 64 pageOffset) (List.replicate length 0) } :=
  .bind (.orThrow (mappedAddress_eq_ok hp hreached hlength hfit))
    (DirectMap.frame_store_runs hp hreached hstable (by rw [List.length_replicate]; exact hfit))

end Frame

/-- On frames that the direct map reaches, whatever is written to them, the writer writes what it is asked to. -/
theorem writer_faithfulOn {d : DirectMap} {I : KernelMemory → Prop} {frames : U64 → Prop}
    (hframes : ∀ p, frames p → IsFrame p ∧ p.toNat < d.limit)
    (hstable : ∀ s, I s → ∀ p, frames p → d.StableOn s (Within p 4096))
    (hkept : ∀ s, I s → ∀ p, frames p → ∀ memory, (∀ x, ¬ Within p 4096 x → memory x = s.memory x) →
      I { s with memory }) :
    (writer ⟨d.offset⟩).FaithfulOn I KernelMemory.memory frames where
  zero p hp pageOffset length hempty hfit s hs := by
    obtain ⟨hframe, hreached⟩ := hframes p hp
    have hfit' : pageOffset + (List.replicate length (0 : U8)).length ≤ 4096 := by
      rw [List.length_replicate]
      exact hfit
    refine ⟨_, zeroPageRange_runs hframe hreached (hstable s hs p hp) hempty hfit,
      hkept s hs p hp _ fun x hx => copyBytes_outside hfit' hx, fun x => ?_⟩
    show copyBytes s.memory _ _ x = _
    rw [copyBytes_apply hfit', List.getElem?_replicate]
    by_cases hin : pageOffset ≤ (x - p).toNat ∧ (x - p).toNat < pageOffset + length
    · rw [if_pos hin, if_pos hin.1, if_pos (by omega), Option.getD_some]
    · rw [if_neg hin]
      split_ifs with hle hlt
      · omega
      · rfl
      · rfl
  copy p hp pageOffset bytes hempty hfit s hs := by
    obtain ⟨hframe, hreached⟩ := hframes p hp
    exact ⟨_, copyIntoPage_runs hframe hreached (hstable s hs p hp) hempty hfit,
      hkept s hs p hp _ fun x hx => copyBytes_outside hfit hx, fun x => copyBytes_apply hfit⟩

end X86ImagePageWriter

end X11Os
