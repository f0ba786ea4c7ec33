import BacktraceLog.Unwind.Chain

/-!
# Soundness of one unwind

A success is one of two things: a leaf, whose return address is the link
register and which released nothing, or a frame, whose return address lay
inside the stack that is released. The stack pointer tells which.
-/

namespace BacktraceLog

variable {c : CodeMap} {m : Mem} {pc sp lr : Word} {off : Nat} {r : Callee}

/-- A leaf: a return lies `off` bytes back, near or out of lookback, its
path leads to `pc`, and the link register is the return address. -/
structure LeafReturn (c : CodeMap) (m : Mem) (pc sp iLr : Word) (off : Nat)
    (r : Callee) : Prop where
  ret : isRet m (pc.toNat - off) = true
  path : (decode m).Visits (pc.toNat - off) pc.toNat
  range : 2 ≤ off ∧ (off ≤ 8 ∨ c.maxLookback < off)
  callee : r = ⟨iLr, sp, 0⟩

/-- A frame of `N` bytes is released whose slot `a` held the return
address. -/
structure FrameRelease (m : Mem) (pc sp : Word) (off N a : Nat)
    (r : Callee) : Prop where
  frame : FrameAt m (pc.toNat - off) N
  size : isAddi m (pc.toNat - off) = true ∧ 16 ≤ N ∧ N ≤ 128 ∧ 16 ∣ N
    ∨ isMovi m (pc.toNat - off) = true ∧ 4 ≤ N ∧ N ≤ 2048 ∧ 4 ∣ N
  sp_eq : r.sp - sp = .ofNat 32 N
  sp_toNat : r.sp.toNat = sp.toNat + N
  pc_eq : r.pc = m.stack (sp + .ofNat 32 a)
  slot : 4 ∣ a ∧ a + 4 ≤ N
  slot_toNat : (sp + .ofNat 32 a).toNat = sp.toNat + a
  fn_aligned : 4 ∣ r.fn.toNat
  fn_le : r.fn.toNat ≤ pc.toNat - 2

/-- A released frame below the wrap of the stack pointer. -/
theorem Released.frameRelease {N a : Nat} (hsp : sp.toNat < 2 ^ 32 - 2048)
    (h2 : 2 ≤ off) (hoff : off ≤ pc.toNat)
    (hframe : FrameAt m (pc.toNat - off) N)
    (h : Released m pc sp off N a r) :
    FrameRelease m pc sp off N a r := by
  have hsize := hframe.frameSize
  have hN : 0 < N ∧ N ≤ 2048 ∧ 4 ∣ N := by
    rcases hsize with ⟨-, h1, h2, h3⟩ | ⟨-, h1, h2, h3⟩
    · exact ⟨h1, by omega, by omega⟩
    · exact ⟨h1, h2, h3⟩
  have hinside := h.inside
  have haligned := h.aligned
  have hmove : (sp + BitVec.ofNat 32 N).toNat = sp.toNat + N := by
    rw [BitVec.toNat_add, BitVec.toNat_ofNat]
    omega
  have hslot : (sp + BitVec.ofNat 32 a).toNat = sp.toNat + a := by
    rw [BitVec.toNat_add, BitVec.toNat_ofNat]
    omega
  have hentry : (pc - BitVec.ofNat 32 off).toNat = pc.toNat - off := by
    have hpc := pc.isLt
    rw [BitVec.toNat_sub, BitVec.toNat_ofNat]
    omega
  have hfn : r.fn.toNat = 4 * ((pc.toNat - off) / 4) := by
    rw [h.callee, ← hentry]
    exact toNat_and_not_three _
  exact {
    frame := hframe
    size := by
      rcases hsize with ⟨h0, h1, h2, h3⟩ | ⟨h0, h1, h2, h3⟩
      · exact .inl ⟨h0, by omega, h2, h3⟩
      · exact .inr ⟨h0, by omega, h2, h3⟩
    sp_eq := by
      rw [h.callee]
      show sp + .ofNat 32 N - sp = _
      rw [BitVec.add_comm, BitVec.add_sub_cancel]
    sp_toNat := by rw [h.callee, hmove]
    pc_eq := by rw [h.callee]
    slot := ⟨haligned, by omega⟩
    slot_toNat := hslot
    fn_aligned := ⟨_, hfn⟩
    fn_le := by omega }

/-- **Soundness of one unwind**: with room above the stack pointer, a
success yields a code address, and is exactly one of a leaf and a frame;
without a usable link register it moves the stack pointer up. -/
theorem callee_sound (c : CodeMap) (m : Mem) (iPc iSp iLr : Word)
    (o r : Callee) (hsp : iSp.toNat < 2 ^ 32 - 2048)
    (h : xtRetaddrCalleeEx c m iPc iSp iLr o = (true, r)) :
    xtPcIsValid c r.pc = true
      ∧ ((∃ off, LeafReturn c m iPc iSp iLr off r)
        ∨ ∃ off N a, FrameRelease m iPc iSp off N a r)
      ∧ ¬ ((∃ off, LeafReturn c m iPc iSp iLr off r)
        ∧ ∃ off N a, FrameRelease m iPc iSp off N a r)
      ∧ (xtPcIsValid c iLr = false → iSp < r.sp) := by
  obtain ⟨hvalid, off, h2, hoff, hstop⟩ := callee_success h
  have hpc := prevTextSize_le c iPc
  have hcases : (xtPcIsValid c iLr = true ∧ LeafReturn c m iPc iSp iLr off r)
      ∨ ∃ N a, FrameRelease m iPc iSp off N a r := by
    rcases (stopAt_eq_some_iff.mp hstop).of_valid hvalid with
      ⟨size, a0, hframe, hr⟩ | ⟨hret, hpath, hrange, hlr, hcallee⟩
    · exact .inr ⟨_, _, hr.frameRelease hsp h2 (by omega) hframe⟩
    · exact .inl ⟨hlr, hret, hpath, ⟨h2, hrange⟩, hcallee⟩
  refine ⟨hvalid, ?_, ?_, ?_⟩
  · rcases hcases with ⟨-, hleaf⟩ | ⟨N, a, hframe⟩
    · exact .inl ⟨off, hleaf⟩
    · exact .inr ⟨off, N, a, hframe⟩
  · -- a leaf keeps the stack pointer, a frame does not
    rintro ⟨⟨off₁, hleaf⟩, off₂, N, a, hframe⟩
    have hsame : r.sp = iSp := by rw [hleaf.callee]
    have hmoved := hframe.sp_toNat
    have hroom := hframe.slot
    rw [hsame] at hmoved
    omega
  · intro hlr
    rcases hcases with ⟨hlr', -⟩ | ⟨N, a, hframe⟩
    · simp [hlr] at hlr'
    · have hmoved := hframe.sp_toNat
      have hroom := hframe.slot
      show iSp.toNat < r.sp.toNat
      omega

theorem callee_sound_smallMem :
    xtPcIsValid (smallMap 0) 0x40100030 = true
      ∧ ((∃ off, LeafReturn (smallMap 0) smallMem 0x40100015 0x3ffffe00 0 off
          ⟨0x40100030, 0x3ffffe10, 0x40100010⟩)
        ∨ ∃ off N a, FrameRelease smallMem 0x40100015 0x3ffffe00 off N a
          ⟨0x40100030, 0x3ffffe10, 0x40100010⟩)
      ∧ ¬ ((∃ off, LeafReturn (smallMap 0) smallMem 0x40100015 0x3ffffe00 0
          off ⟨0x40100030, 0x3ffffe10, 0x40100010⟩)
        ∧ ∃ off N a, FrameRelease smallMem 0x40100015 0x3ffffe00 off N a
          ⟨0x40100030, 0x3ffffe10, 0x40100010⟩)
      ∧ (xtPcIsValid (smallMap 0) 0 = false →
        (0x3ffffe00 : Word) < 0x3ffffe10) :=
  callee_sound (smallMap 0) smallMem 0x40100015 0x3ffffe00 0
    ⟨0x40100015, 0x3ffffe00, 0⟩ ⟨0x40100030, 0x3ffffe10, 0x40100010⟩
    (by decide) (by decide)

end BacktraceLog
