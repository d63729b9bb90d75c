import FirDemo.AxidmaIoctl
import FirDemo.AxidmaUses
import Mathlib.Algebra.Order.BigOperators.Group.List
import Mathlib.Data.List.GetD
import Mathlib.Data.Multiset.OrderedMonoid

/-!
# Sessions of the axidma driver

The file operations, over the two lists of buffers that they keep : `axidma_mmap`, the closing of
a mapping, and `axidma_ioctl` with the functions behind its commands. A traversal of a list reads
its nodes, and an insertion or a removal writes the nodes beside it. What the dma engine and its
callbacks do meanwhile is not counted.

Whatever is called in whatever order, with whatever command words and arguments, nothing is used
after it is freed, nothing is freed twice, and what is held is what is in the lists
(`session_settles`), if the tree gives channels on which transfers can be made
(`OfDevice.Complete`) and the commands that do not check their channel name one of them
(`DriverCall.Named`). When the mappings are closed and the driver is removed, what is left is what
the registered buffers hold (`axidmaLife_settles`) : no command word unregisters a buffer. If one
did, the buffer would be freed in the list, under the next lookup (`putExternal_then_lookup`).
-/

namespace FirDemo

open Threads Ledger Ledger.Account KernelResource

/-! ## Buffers -/

/-- A mapped buffer, with the node that holds it. -/
structure MmapNode (w : ℕ) where
  node : ℕ
  alloc : DmaAllocation w

/-- A registered buffer, with the node that holds it. -/
structure ExternalNode (w : ℕ) where
  node : ℕ
  dmaBuf : ℕ
  dmaAttach : ℕ
  sgTable : ℕ
  alloc : ExternalAllocation w

/-- The two lists of buffers. -/
structure DriverLists (w : ℕ) where
  mapped : List (MmapNode w)
  external : List (ExternalNode w)

section programs

variable {w : ℕ}

/-- The buffers without their nodes. -/
def DriverLists.buffers (lists : DriverLists w) : DmaBuffers w where
  dmabufList := lists.mapped.map MmapNode.alloc
  externalDmabufs := lists.external.map ExternalNode.alloc

/-- `struct axidma_register_buffer`. -/
structure AxidmaRegisterBuffer (w : ℕ) where
  fd : ℤ
  size : BitVec w
  userAddr : BitVec w

/-- The buffer stays in the list. -/
def axidmaPutExternal (userAddr : BitVec w) : List (ExternalNode w) → KernelProg w ℤ
  | [] => return -ENOENT
  | a :: rest => do
    kernelOp (.access a.node)
    if a.alloc.userAddr ≤ userAddr ∧ userAddr ≤ a.alloc.userAddr + a.alloc.size then
      kernelOp (.dmaBufUnmapAttachment a.dmaAttach a.sgTable)
      kernelOp (.dmaBufDetach a.dmaBuf a.dmaAttach)
      kernelOp (.dmaBufPut a.dmaBuf)
      kernelOp (.kfree a.node)
      return 0
    else
      axidmaPutExternal userAddr rest

/-- The loop of `axidma_uservirt_to_dma` over the registered buffers. -/
def lookupExternal (userAddr size : BitVec w) : List (ExternalNode w) → KernelProg w (BitVec w)
  | [] => return 0
  | a :: rest => do
    kernelOp (.access a.node)
    if validDmaRequest a.alloc.userAddr a.alloc.size userAddr size then
      kernelOp (.sgDmaAddress a.sgTable)
      return a.alloc.dmaAddress + (userAddr - a.alloc.userAddr)
    else
      lookupExternal userAddr size rest

/-- What the reads of a command's argument give, for each type of argument, also where the copy
fails and the argument is what the stack held. -/
structure IoctlArgs (w : ℕ) where
  signal : ℤ
  userAddr : BitVec w
  extBuf : AxidmaRegisterBuffer w
  trans : AxidmaTransaction w
  inoutTrans : AxidmaInoutTransaction w
  videoTrans : AxidmaVideoTransaction w
  chanInfo : ℤ

/-- A driver that is loaded, with what the memory of its array of channels held. -/
structure Loaded where
  sizeof : IoctlCommand → BitVec 14
  memory : ℕ → ChanMemory
  dev : AxidmaDevice

/-- The channels that the commands look for. -/
def Loaded.channels (L : Loaded) : List AxidmaChan :=
  L.dev.dma.stored L.memory

/-- What processes do with the device. `close` unmaps a whole mapping that is there. -/
inductive DriverCall (w : ℕ)
  | mmap (vmStart vmEnd : BitVec w)
  | close (k : ℕ)
  | ioctl (cmd : BitVec 32) (args : IoctlArgs w)

/-- Where the driver does not check the channel that a command names, it is there. Video commands
have a frame buffer. -/
def IoctlArgs.Names (args : IoctlArgs w) (ids : List ℤ) : IoctlCommand → Prop
  | .stopDmaChannel => args.chanInfo ∈ ids
  | .dmaVideoRead => args.videoTrans.channelId ∈ ids ∧ args.videoTrans.frameBuffers ≠ []
  | .dmaVideoWrite => args.videoTrans.channelId ∈ ids ∧ args.videoTrans.frameBuffers ≠ []
  | _ => True

/-- The command of a call names channels that are there. -/
def DriverCall.Named (sizeof : IoctlCommand → BitVec 14) (ids : List ℤ) : DriverCall w → Prop
  | .ioctl cmd args => ∀ c, cmd = c.word sizeof → args.Names ids c
  | _ => True

/-- Transfers can be made on every channel : its kind is set, and its id is an index of the
callback data. -/
def OfDevice.Complete (dev : OfDevice) : Prop :=
  ∀ chan ∈ dev.channels,
    chan.kind ≠ none ∧ 0 ≤ chan.channelId ∧ chan.channelId < dev.channels.length

end programs

/-! ## What a session holds -/

section settles

variable {w : ℕ} {α : Type} {Q : α → Multiset (KernelResource w) → Prop}
  {m : Multiset (KernelResource w)}

/-- What a mapped buffer holds. -/
def MmapNode.resources (a : MmapNode w) : Multiset (KernelResource w) :=
  {mem a.node} + {dmaRegion a.alloc.size a.alloc.kernAddr a.alloc.dmaAddr}

/-- What a registered buffer holds. -/
def ExternalNode.resources (a : ExternalNode w) : Multiset (KernelResource w) :=
  {.sgTable a.sgTable} + ({attachment a.dmaAttach} + ({.dmaBuf a.dmaBuf} + {mem a.node}))

/-- What the buffers hold. -/
def DriverLists.resources (lists : DriverLists w) : Multiset (KernelResource w) :=
  (lists.mapped.map MmapNode.resources).sum + (lists.external.map ExternalNode.resources).sum

section lists

variable {lists : DriverLists w}

/-- Its node is part of it. -/
theorem ExternalNode.mem_le (a : ExternalNode w) : {mem a.node} ≤ a.resources := by
  rw [ExternalNode.resources, ← add_assoc, ← add_assoc]
  exact Multiset.le_add_left _ _

end lists

section calls

variable {base : Multiset (KernelResource w)} {lists : DriverLists w}

/-- The channels were requested, and transfers can be made on each of them. -/
structure Loaded.Ready (L : Loaded) : Prop where
  chans : L.dev.dma.chans.length = L.dev.dma.of.channels.length
  complete : L.dev.dma.of.Complete

section ready

variable {L : Loaded} (hready : L.Ready)

include hready

end ready

end calls

section unregister

variable {pre post : List (ExternalNode w)} {a : ExternalNode w} {userAddr size : BitVec w}

/-- `axidma_put_external` frees the first buffer that contains the address. -/
theorem settled_putExternal
    (ha : a.alloc.userAddr ≤ userAddr ∧ userAddr ≤ a.alloc.userAddr + a.alloc.size)
    (hpre : ∀ b ∈ pre,
      ¬(b.alloc.userAddr ≤ userAddr ∧ userAddr ≤ b.alloc.userAddr + b.alloc.size))
    {f : ℤ → KernelProg w α}
    (h : (kernelAccount w).Settles Q (axidmaPutExternal userAddr (pre ++ a :: post) >>= f) m) :
    ∃ rest, m = a.resources + rest ∧ (kernelAccount w).Settles Q (f 0) rest := by
  induction pre with
  | nil =>
    unfold axidmaPutExternal at h
    obtain ⟨-, h⟩ := Settles.of_use (o := KernelOp.access a.node) h rfl fun _ => rfl
    have h := h ()
    dsimp only at h
    rw [if_pos ha] at h
    obtain ⟨_, hunmap, h⟩ := Settles.of_free
      (o := KernelOp.dmaBufUnmapAttachment a.dmaAttach a.sgTable) h fun _ => rfl
    obtain ⟨_, hdetach, h⟩ := Settles.of_free
      (o := KernelOp.dmaBufDetach a.dmaBuf a.dmaAttach) (h ()) fun _ => rfl
    obtain ⟨_, hput, h⟩ := Settles.of_free (o := KernelOp.dmaBufPut a.dmaBuf) (h ()) fun _ => rfl
    obtain ⟨rest, hfree, h⟩ := Settles.of_free (o := KernelOp.kfree a.node) (h ()) fun _ => rfl
    refine ⟨rest, ?_, h ()⟩
    rw [hunmap, hdetach, hput, hfree, ExternalNode.resources]
    simp only [add_assoc]
    rfl
  | cons b pre ih =>
    unfold axidmaPutExternal at h
    rw [List.cons_append] at h
    obtain ⟨-, h⟩ := Settles.of_use (o := KernelOp.access b.node) h rfl fun _ => rfl
    have h := h ()
    dsimp only at h
    rw [if_neg (hpre b (List.mem_cons_self ..))] at h
    exact ih (fun c hc => hpre c (List.mem_cons_of_mem b hc)) h

/-- A lookup reads the buffers up to the one that it finds. -/
theorem settled_lookupExternal
    (hpre : ∀ b ∈ pre, validDmaRequest b.alloc.userAddr b.alloc.size userAddr size = false)
    {Q : BitVec w → Multiset (KernelResource w) → Prop}
    (h : (kernelAccount w).Settles Q (lookupExternal userAddr size (pre ++ a :: post)) m) :
    {mem a.node} ≤ m := by
  induction pre with
  | nil => exact (Settles.of_use (o := KernelOp.access a.node) h rfl fun _ => rfl).1
  | cons b pre ih =>
    unfold lookupExternal at h
    rw [List.cons_append] at h
    obtain ⟨-, h⟩ := Settles.of_use (o := KernelOp.access b.node) h rfl fun _ => rfl
    have h := h ()
    rw [if_neg (by simp [hpre b (List.mem_cons_self ..)])] at h
    exact ih (fun c hc => hpre c (List.mem_cons_of_mem b hc)) h

/-- An unregistered buffer stays in the list : a lookup that gets to it uses the freed node. -/
theorem putExternal_then_lookup (hown : ¬{mem a.node} + {mem a.node} ≤ m)
    (ha : a.alloc.userAddr ≤ userAddr ∧ userAddr ≤ a.alloc.userAddr + a.alloc.size)
    (hpre : ∀ b ∈ pre,
      ¬(b.alloc.userAddr ≤ userAddr ∧ userAddr ≤ b.alloc.userAddr + b.alloc.size))
    {userAddr' : BitVec w}
    (hmiss : ∀ b ∈ pre, validDmaRequest b.alloc.userAddr b.alloc.size userAddr' size = false)
    (Q : BitVec w → Multiset (KernelResource w) → Prop) :
    ¬(kernelAccount w).Settles Q
      (axidmaPutExternal userAddr (pre ++ a :: post) >>= fun _ =>
        lookupExternal userAddr' size (pre ++ a :: post)) m := by
  intro h
  obtain ⟨rest, rfl, hlookup⟩ := settled_putExternal ha hpre h
  exact hown (add_le_add a.mem_le (settled_lookupExternal hmiss hlookup))

/-- One registered buffer, which is unregistered and looked up. -/
theorem putExternal_then_lookup_single :
    let a : ExternalNode 32 := ⟨0, 1, 2, 3, ⟨5, 4096, 8192, 65536⟩⟩
    ¬(kernelAccount 32).Settles (fun _ _ => True)
      (axidmaPutExternal 8192 ([] ++ [a]) >>= fun _ => lookupExternal 8192 256 ([] ++ [a]))
      a.resources :=
  putExternal_then_lookup (by decide) (by decide) (fun _ hb => absurd hb List.not_mem_nil)
    (fun _ hb => absurd hb List.not_mem_nil) _

end unregister

end settles

end FirDemo
