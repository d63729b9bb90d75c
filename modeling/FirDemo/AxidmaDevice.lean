import FirDemo.Segments
import Mathlib.Algebra.Group.Nat.Defs
import Mathlib.Data.Int.Notation
import Mathlib.Data.List.Find
import Mathlib.Data.List.Nodup

/-!
# The axidma driver : channels and buffers

The data of the kernel driver, and its translation of user addresses to bus addresses. Pointers
and bus addresses have the same width `w`, which is 32 on the board; their sums wrap.

A request that does not wrap is translated as through the segments of the buffers, newest
mapping first, then the external buffers (`toNat_axidmaUservirtToDma`). The end of a request is
compared after it wrapped, so the check also accepts requests that leave the buffer
(`validDmaRequest_iff`).
-/

namespace FirDemo

open Segments

/-! ## Error numbers -/

/-- No such entry. -/
def ENOENT : ℤ := 2
/-- Out of memory. -/
def ENOMEM : ℤ := 12
/-- Bad address. -/
def EFAULT : ℤ := 14
/-- The engine refuses. -/
def EBUSY : ℤ := 16
/-- No such channel. -/
def ENODEV : ℤ := 19
/-- Invalid argument. -/
def EINVAL : ℤ := 22
/-- No such command. -/
def ENOTTY : ℤ := 25
/-- The probe failed. -/
def ENOSYS : ℤ := 38
/-- The wait timed out. -/
def ETIME : ℤ := 62

/-! ## Channels -/

/-- `enum axidma_dir`. -/
inductive AxidmaDir
  | write
  | read
  deriving DecidableEq, Repr

/-- `enum axidma_type`. -/
inductive AxidmaType
  | dma
  | vdma
  deriving DecidableEq, Repr

/-- `struct axidma_video_frame`, whose fields are `int`. -/
structure AxidmaVideoFrame where
  height : BitVec 32
  width : BitVec 32
  depth : BitVec 32
  deriving DecidableEq, Repr

/-- `chan` is the channel of the dma engine. The direction and the type are `none` where the memory
holds neither value of the enumeration. -/
structure AxidmaChan where
  dir : Option AxidmaDir
  type : Option AxidmaType
  channelId : ℤ
  name : String
  chan : ℕ
  deriving DecidableEq, Repr

/-- The first channel with the id. -/
def axidmaGetChan (channels : List AxidmaChan) (channelId : ℤ) : Option AxidmaChan :=
  channels.find? fun chan => chan.channelId = channelId

/-- A channel that was found is in the array. -/
theorem mem_of_axidmaGetChan {channels : List AxidmaChan} {channelId : ℤ} {chan : AxidmaChan}
    (h : axidmaGetChan channels channelId = some chan) : chan ∈ channels :=
  List.mem_of_find?_eq_some h

/-- It has the id. -/
theorem channelId_of_axidmaGetChan {channels : List AxidmaChan} {channelId : ℤ}
    {chan : AxidmaChan} (h : axidmaGetChan channels channelId = some chan) :
    chan.channelId = channelId := by
  simpa using List.find?_some h

/-- With distinct ids, a channel is the one found under its id. -/
theorem axidmaGetChan_of_mem {channels : List AxidmaChan}
    (hids : (channels.map AxidmaChan.channelId).Nodup) {chan : AxidmaChan}
    (h : chan ∈ channels) : axidmaGetChan channels chan.channelId = some chan := by
  cases hfind : axidmaGetChan channels chan.channelId with
  | none => simpa using List.find?_eq_none.mp hfind chan h
  | some found =>
    have hmem := mem_of_axidmaGetChan hfind
    have hid := channelId_of_axidmaGetChan hfind
    exact congrArg some (List.inj_on_of_nodup_map hids hmem h hid)

/-! ## Buffers -/

/-- A buffer that the driver allocated for an `mmap`. -/
structure DmaAllocation (w : ℕ) where
  size : BitVec w
  userAddr : BitVec w
  kernAddr : BitVec w
  dmaAddr : BitVec w
  deriving DecidableEq, Repr

/-- A buffer of another driver. `dmaAddress` is that of the first entry of its table. -/
structure ExternalAllocation (w : ℕ) where
  fd : ℤ
  size : BitVec w
  userAddr : BitVec w
  dmaAddress : BitVec w
  deriving DecidableEq, Repr

/-- The two lists of buffers of the driver. -/
structure DmaBuffers (w : ℕ) where
  dmabufList : List (DmaAllocation w)
  externalDmabufs : List (ExternalAllocation w)
  deriving DecidableEq, Repr

section buffers

variable {w : ℕ}

/-- `valid_dma_request`. Both sums wrap. -/
def validDmaRequest (dmaStart dmaSize userAddr userSize : BitVec w) : Bool :=
  decide (dmaStart ≤ userAddr) && decide (userAddr + userSize ≤ dmaStart + dmaSize)

/-- The bus address of a user address, 0 if no buffer takes the request. -/
def axidmaUservirtToDma (dev : DmaBuffers w) (userAddr size : BitVec w) : BitVec w :=
  match dev.dmabufList.find? fun dmaAlloc =>
      validDmaRequest dmaAlloc.userAddr dmaAlloc.size userAddr size with
  | some dmaAlloc => dmaAlloc.dmaAddr + (userAddr - dmaAlloc.userAddr)
  | none =>
    match dev.externalDmabufs.find? fun dmaExtAlloc =>
        validDmaRequest dmaExtAlloc.userAddr dmaExtAlloc.size userAddr size with
    | some dmaExtAlloc => dmaExtAlloc.dmaAddress + (userAddr - dmaExtAlloc.userAddr)
    | none => 0

/-- `list_add` of a mapped buffer. -/
def DmaBuffers.addMapped (dev : DmaBuffers w) (dmaAlloc : DmaAllocation w) : DmaBuffers w :=
  { dev with dmabufList := dmaAlloc :: dev.dmabufList }

/-- `list_add` of a registered buffer. -/
def DmaBuffers.addExternal (dev : DmaBuffers w) (dmaExtAlloc : ExternalAllocation w) :
    DmaBuffers w :=
  { dev with externalDmabufs := dmaExtAlloc :: dev.externalDmabufs }

/-- `list_del`, when a mapping is closed. -/
def DmaBuffers.close (dev : DmaBuffers w) (dmaAlloc : DmaAllocation w) : DmaBuffers w :=
  { dev with dmabufList := dev.dmabufList.erase dmaAlloc }

/-- The addresses of a mapped buffer. -/
def DmaAllocation.segment (dmaAlloc : DmaAllocation w) : Segment where
  base := dmaAlloc.userAddr.toNat
  size := dmaAlloc.size.toNat
  target := dmaAlloc.dmaAddr.toNat

/-- The addresses of a registered buffer. -/
def ExternalAllocation.segment (dmaExtAlloc : ExternalAllocation w) : Segment where
  base := dmaExtAlloc.userAddr.toNat
  size := dmaExtAlloc.size.toNat
  target := dmaExtAlloc.dmaAddress.toNat

/-- The buffers in the order in which a lookup tries them. -/
def DmaBuffers.segments (dev : DmaBuffers w) : List Segment :=
  dev.dmabufList.map DmaAllocation.segment ++ dev.externalDmabufs.map ExternalAllocation.segment

end buffers

/-- A buffer that wraps neither in user nor in bus addresses, and is not at bus address 0. -/
structure Placed (w : ℕ) (g : Segment) : Prop where
  base_add_size : g.base + g.size < 2 ^ w
  target_pos : 0 < g.target
  target_add_size : g.target + g.size < 2 ^ w

/-- Buffers that share neither user nor bus addresses. -/
structure DmaBuffers.Sound {w : ℕ} (dev : DmaBuffers w) : Prop where
  placed : ∀ g ∈ dev.segments, Placed w g
  apart : dev.segments.Pairwise Segment.Apart
  targetsApart : dev.segments.Pairwise Segment.TargetsApart

section lookups

variable {w : ℕ} {dev : DmaBuffers w} {userAddr size : BitVec w}

/-- A request is accepted if it lies in the buffer, or if its end wraps to an address before
the end of the buffer. -/
theorem validDmaRequest_iff {dmaStart dmaSize : BitVec w}
    (hbuf : dmaStart.toNat + dmaSize.toNat < 2 ^ w) :
    validDmaRequest dmaStart dmaSize userAddr size = true ↔
      dmaStart.toNat ≤ userAddr.toNat ∧
        (userAddr.toNat + size.toNat ≤ dmaStart.toNat + dmaSize.toNat ∨
          2 ^ w ≤ userAddr.toNat + size.toNat ∧
            userAddr.toNat + size.toNat ≤ dmaStart.toNat + dmaSize.toNat + 2 ^ w) := by
  have hu := userAddr.isLt
  have hs := size.isLt
  unfold validDmaRequest
  rw [Bool.and_eq_true, decide_eq_true_eq, decide_eq_true_eq, BitVec.le_def, BitVec.le_def,
    BitVec.toNat_add, BitVec.toNat_add, Nat.mod_eq_of_lt hbuf]
  by_cases hwrap : userAddr.toNat + size.toNat < 2 ^ w
  · rw [Nat.mod_eq_of_lt hwrap]
    omega
  · rw [Nat.mod_eq_sub_mod (by omega), Nat.mod_eq_of_lt (by omega)]
    omega

/-- A request that does not wrap is accepted exactly if the buffer covers it. -/
theorem validDmaRequest_eq_covers {g : Segment} {dmaStart dmaSize : BitVec w}
    (hbase : g.base = dmaStart.toNat) (hsize : g.size = dmaSize.toNat)
    (hbuf : g.base + g.size < 2 ^ w) (hreq : userAddr.toNat + size.toNat < 2 ^ w) :
    validDmaRequest dmaStart dmaSize userAddr size =
      decide (g.Covers userAddr.toNat size.toNat) := by
  rw [Bool.eq_iff_iff, validDmaRequest_iff (by omega), decide_eq_true_eq, Segment.Covers]
  omega

/-- The bus address of a range that the buffer covers does not wrap. -/
theorem Placed.toNat_image {g : Segment} {base target : BitVec w} (hg : Placed w g)
    (hbase : g.base = base.toNat) (htarget : g.target = target.toNat)
    {n : ℕ} (hcov : g.Covers userAddr.toNat n) :
    (target + (userAddr - base)).toNat = g.image userAddr.toNat := by
  obtain ⟨hlo, hhi⟩ := hcov
  have hplaced := hg.target_add_size
  rw [Segment.image, BitVec.toNat_add, BitVec.toNat_sub_of_le (by rw [BitVec.le_def]; omega),
    ← hbase, ← htarget, Nat.mod_eq_of_lt (by omega)]

/-- The loop over a list of buffers finds the first that covers the request. -/
theorem find?_validDmaRequest {α : Type} {userAddrOf sizeOf : α → BitVec w} {L : List α}
    (segment : α → Segment) (hbase : ∀ b, (segment b).base = (userAddrOf b).toNat)
    (hsize : ∀ b, (segment b).size = (sizeOf b).toNat)
    (hplaced : ∀ b ∈ L, Placed w (segment b)) (hreq : userAddr.toNat + size.toNat < 2 ^ w) :
    (L.find? fun b => validDmaRequest (userAddrOf b) (sizeOf b) userAddr size) =
      L.find? fun b => (segment b).Covers userAddr.toNat size.toNat :=
  List.find?_congr fun b hb =>
    validDmaRequest_eq_covers (hbase b) (hsize b) (hplaced b hb).base_add_size hreq

/-- A request that does not wrap is translated through the segments of the buffers. -/
theorem toNat_axidmaUservirtToDma (hplaced : ∀ g ∈ dev.segments, Placed w g)
    (hreq : userAddr.toNat + size.toNat < 2 ^ w) :
    (axidmaUservirtToDma dev userAddr size).toNat =
      (Segments.translate dev.segments userAddr.toNat size.toNat).getD 0 := by
  have hmapped : ∀ b ∈ dev.dmabufList, Placed w b.segment := fun b hb =>
    hplaced _ (List.mem_append_left _ (List.mem_map_of_mem hb))
  have hexternal : ∀ b ∈ dev.externalDmabufs, Placed w b.segment := fun b hb =>
    hplaced _ (List.mem_append_right _ (List.mem_map_of_mem hb))
  unfold axidmaUservirtToDma
  rw [Segments.translate, DmaBuffers.segments, List.find?_append, List.find?_map, List.find?_map,
    find?_validDmaRequest DmaAllocation.segment (fun _ => rfl) (fun _ => rfl) hmapped hreq,
    find?_validDmaRequest ExternalAllocation.segment (fun _ => rfl) (fun _ => rfl) hexternal hreq]
  simp only [Function.comp_def]
  cases hfind : dev.dmabufList.find? fun b => b.segment.Covers userAddr.toNat size.toNat with
  | some b =>
    exact (hmapped b (List.mem_of_find?_eq_some hfind)).toNat_image rfl rfl
      (by simpa using List.find?_some hfind)
  | none =>
    cases hfind' : dev.externalDmabufs.find? fun b =>
        b.segment.Covers userAddr.toNat size.toNat with
    | some b =>
      exact (hexternal b (List.mem_of_find?_eq_some hfind')).toNat_image rfl rfl
        (by simpa using List.find?_some hfind')
    | none => simp

/-- A lookup succeeds if a buffer covers the request. -/
theorem axidmaUservirtToDma_ne_zero_iff (hplaced : ∀ g ∈ dev.segments, Placed w g)
    (hreq : userAddr.toNat + size.toNat < 2 ^ w) :
    axidmaUservirtToDma dev userAddr size ≠ 0 ↔
      ∃ g ∈ dev.segments, g.Covers userAddr.toNat size.toNat := by
  have htranslate := toNat_axidmaUservirtToDma hplaced hreq
  rw [Ne, ← BitVec.toNat_inj, htranslate, BitVec.ofNat_eq_ofNat, BitVec.toNat_zero]
  cases hd : Segments.translate dev.segments userAddr.toNat size.toNat with
  | none => simpa using translate_eq_none_iff.mp hd
  | some d =>
    obtain ⟨g, hg, hcov, rfl⟩ := exists_of_translate hd
    have hpos := (hplaced g hg).target_pos
    refine ⟨fun _ => ⟨g, hg, hcov⟩, fun _ => ?_⟩
    simp only [Option.getD_some, Segment.image]
    omega

/-- A lookup that succeeds answers what the segments give. -/
theorem translate_of_ne_zero (hplaced : ∀ g ∈ dev.segments, Placed w g)
    (hreq : userAddr.toNat + size.toNat < 2 ^ w)
    (hne : axidmaUservirtToDma dev userAddr size ≠ 0) :
    Segments.translate dev.segments userAddr.toNat size.toNat =
      some (axidmaUservirtToDma dev userAddr size).toNat := by
  have htranslate := toNat_axidmaUservirtToDma hplaced hreq
  cases hd : Segments.translate dev.segments userAddr.toNat size.toNat with
  | none =>
    obtain ⟨g, hg, hcov⟩ := (axidmaUservirtToDma_ne_zero_iff hplaced hreq).mp hne
    exact absurd hcov (translate_eq_none_iff.mp hd g hg)
  | some d => rw [htranslate, hd, Option.getD_some]

/-- The buffers of a transfer of 64 words, mapped at 4096 and at 8192. -/
def rampBuffers : DmaBuffers 32 where
  dmabufList := [⟨256, 8192, 0, 131072⟩, ⟨256, 4096, 0, 65536⟩]
  externalDmabufs := []

/-- The segments of the two buffers. -/
theorem rampBuffers_segments :
    rampBuffers.segments = [⟨8192, 256, 131072⟩, ⟨4096, 256, 65536⟩] :=
  rfl

/-- They are placed and apart. -/
theorem rampBuffers_sound : rampBuffers.Sound where
  placed := by
    intro g hg
    rw [rampBuffers_segments, List.mem_pair] at hg
    rcases hg with rfl | rfl <;> exact ⟨by decide, by decide, by decide⟩
  apart := List.pairwise_pair.mpr (Or.inr (by decide))
  targetsApart := List.pairwise_pair.mpr (Or.inr (by decide))

/-- A part of an accepted request is accepted and has its part of the bus addresses, in whatever
order the buffers are listed. -/
theorem axidmaUservirtToDma_add (hdev : dev.Sound)
    (hreq : userAddr.toNat + size.toNat < 2 ^ w)
    (hne : axidmaUservirtToDma dev userAddr size ≠ 0) {dev' : DmaBuffers w}
    (hperm : dev.segments.Perm dev'.segments) {offset part : BitVec w} (hpart : 0 < part.toNat)
    (hin : offset.toNat + part.toNat ≤ size.toNat) :
    axidmaUservirtToDma dev' (userAddr + offset) part ≠ 0 ∧
      axidmaUservirtToDma dev' (userAddr + offset) part =
        axidmaUservirtToDma dev userAddr size + offset := by
  have hplaced' : ∀ g ∈ dev'.segments, Placed w g := fun g hg =>
    hdev.placed g (hperm.mem_iff.mpr hg)
  have hwhole := translate_of_ne_zero hdev.placed hreq hne
  have haddr : (userAddr + offset).toNat = userAddr.toNat + offset.toNat := by
    rw [BitVec.toNat_add, Nat.mod_eq_of_lt (by omega)]
  have hsub : Segments.translate dev'.segments (userAddr + offset).toNat part.toNat =
      some ((axidmaUservirtToDma dev userAddr size).toNat + offset.toNat) := by
    rw [haddr, ← translate_perm hperm hdev.apart hpart]
    exact translate_add hdev.apart hpart hin hwhole
  obtain ⟨g, hg, hcov, himage⟩ := exists_of_translate hwhole
  have hbound := (hdev.placed g hg).target_add_size
  obtain ⟨hlo, hhi⟩ := id hcov
  refine ⟨(axidmaUservirtToDma_ne_zero_iff hplaced' (by omega)).mpr
    ⟨g, hperm.mem_iff.mp hg, by omega, by omega⟩, ?_⟩
  apply BitVec.eq_of_toNat_eq
  rw [toNat_axidmaUservirtToDma hplaced' (by omega), hsub, Option.getD_some, BitVec.toNat_add,
    Nat.mod_eq_of_lt]
  rw [himage, Segment.image]
  omega

/-- A part of the first buffer, with the buffers turned around. -/
theorem axidmaUservirtToDma_add_rampBuffers :
    axidmaUservirtToDma ⟨rampBuffers.dmabufList.reverse, []⟩ (4096 + 16) 8 ≠ 0 ∧
      axidmaUservirtToDma ⟨rampBuffers.dmabufList.reverse, []⟩ (4096 + 16) 8 =
        axidmaUservirtToDma rampBuffers 4096 256 + 16 :=
  @axidmaUservirtToDma_add 32 rampBuffers 4096 256 rampBuffers_sound (by decide) (by decide)
    ⟨rampBuffers.dmabufList.reverse, []⟩ (.swap _ _ _) 16 8 (by decide) (by decide)

/-- Accepted requests whose bus addresses meet ask for the same byte there. -/
theorem axidmaUservirtToDma_inj (hdev : dev.Sound) {userAddr' size' : BitVec w}
    (hreq : userAddr.toNat + size.toNat < 2 ^ w) (hreq' : userAddr'.toNat + size'.toNat < 2 ^ w)
    (hne : axidmaUservirtToDma dev userAddr size ≠ 0)
    (hne' : axidmaUservirtToDma dev userAddr' size' ≠ 0) {i j : ℕ}
    (hi : i < size.toNat) (hj : j < size'.toNat)
    (hmeet : (axidmaUservirtToDma dev userAddr size).toNat + i =
      (axidmaUservirtToDma dev userAddr' size').toNat + j) :
    userAddr.toNat + i = userAddr'.toNat + j :=
  translate_inj hdev.targetsApart (translate_of_ne_zero hdev.placed hreq hne)
    (translate_of_ne_zero hdev.placed hreq' hne') hi hj hmeet

/-- Two requests that share a byte of the first buffer. -/
theorem axidmaUservirtToDma_inj_rampBuffers : (4096#32).toNat + 20 = (4112#32).toNat + 4 :=
  @axidmaUservirtToDma_inj 32 rampBuffers 4096 256 rampBuffers_sound 4112 8
    (by decide) (by decide) (by decide) (by decide) 20 4 (by decide) (by decide) (by decide)

/-- In the buffer that was mapped last, a request is accepted if the buffer holds it, or if its
end wraps. -/
theorem axidmaUservirtToDma_addMapped_ne_zero_iff {dmaAlloc : DmaAllocation w}
    (hdev : (dev.addMapped dmaAlloc).Sound) (hin : dmaAlloc.segment.Covers userAddr.toNat 1) :
    axidmaUservirtToDma (dev.addMapped dmaAlloc) userAddr size ≠ 0 ↔
      dmaAlloc.segment.Covers userAddr.toNat size.toNat ∨
        2 ^ w ≤ userAddr.toNat + size.toNat := by
  have hmem : dmaAlloc.segment ∈ (dev.addMapped dmaAlloc).segments := List.mem_cons_self
  have hplaced := hdev.placed _ hmem
  have hsize := size.isLt
  by_cases hwrap : 2 ^ w ≤ userAddr.toNat + size.toNat
  · have hvalid : validDmaRequest dmaAlloc.userAddr dmaAlloc.size userAddr size = true :=
      (validDmaRequest_iff hplaced.base_add_size).mpr
        ⟨hin.1, Or.inr ⟨hwrap, by have := hin.2; simp only [DmaAllocation.segment] at this; omega⟩⟩
    have hfind : axidmaUservirtToDma (dev.addMapped dmaAlloc) userAddr size =
        dmaAlloc.dmaAddr + (userAddr - dmaAlloc.userAddr) := by
      simp [axidmaUservirtToDma, DmaBuffers.addMapped, hvalid]
    refine ⟨fun _ => Or.inr hwrap, fun _ hzero => ?_⟩
    -- the image of the first byte is an address of the buffer, so it is not 0
    have himage : (dmaAlloc.dmaAddr + (userAddr - dmaAlloc.userAddr)).toNat =
        dmaAlloc.segment.image userAddr.toNat := hplaced.toNat_image rfl rfl hin
    have hpos := hplaced.target_pos
    rw [← hfind, hzero, BitVec.ofNat_eq_ofNat, BitVec.toNat_zero, Segment.image] at himage
    omega
  · rw [axidmaUservirtToDma_ne_zero_iff hdev.placed (by omega)]
    refine ⟨?_, ?_⟩
    · rintro ⟨g, hg, hcov⟩
      left
      by_cases hzero : size.toNat = 0
      · obtain ⟨hlo, hhi⟩ := hin
        exact ⟨hlo, by omega⟩
      · have hcov' : g.Covers userAddr.toNat 1 := ⟨hcov.1, by have := hcov.2; omega⟩
        rwa [eq_of_covers hdev.apart Nat.one_pos hmem hg hin hcov']
    · rintro (hcov | hwrap')
      · exact ⟨_, hmem, hcov⟩
      · exact absurd hwrap' hwrap

/-- A request in the second buffer. -/
theorem axidmaUservirtToDma_addMapped_rampBuffers :
    axidmaUservirtToDma rampBuffers 8200 64 ≠ 0 ↔
      (⟨8192, 256, 131072⟩ : Segment).Covers 8200 64 ∨ 2 ^ 32 ≤ 8200 + 64 :=
  @axidmaUservirtToDma_addMapped_ne_zero_iff 32 ⟨[⟨256, 4096, 0, 65536⟩], []⟩ 8200 64
    ⟨256, 8192, 0, 131072⟩ rampBuffers_sound (by decide)

end lookups

end FirDemo
