import Mathlib
import TheiaTaint.Engine.BitmapState

namespace TheiaTaint.Engine.Bitmap

open Tags.Directory BitmapState

-- `size_t` temporaries hold register tags, so they keep their 32 bits here.
/-- The cast `(uint16_t)`, promoted again. -/
def toUint16 (x : BitVec 32) : BitVec 32 := (x.setWidth 16).setWidth 32

/-- Runs a handler body on the entry of an address. -/
def withEntry (addr : AddrInt) (body : BitVec 32 → BitmapState → BitmapState)
    (b : BitmapState) : Option BitmapState :=
  (b.virt2entry addr).map fun b ↦ body (b.entry addr) b

def r2rXferOpbUl (dst src : Reg) (b : BitmapState) : BitmapState :=
  b.setGpr dst ((b.gpr dst &&& ~~~(vcpuMask8 <<< 1)) ||| ((b.gpr src &&& vcpuMask8) <<< 1))

def r2rXferOpbLu (dst src : Reg) (b : BitmapState) : BitmapState :=
  b.setGpr dst ((b.gpr dst &&& ~~~vcpuMask8) ||| ((b.gpr src &&& (vcpuMask8 <<< 1)) >>> 1))

def r2rXferOpbU (dst src : Reg) (b : BitmapState) : BitmapState :=
  b.setGpr dst ((b.gpr dst &&& ~~~(vcpuMask8 <<< 1)) ||| (b.gpr src &&& (vcpuMask8 <<< 1)))

def r2rXferOpbL (dst src : Reg) (b : BitmapState) : BitmapState :=
  b.setGpr dst ((b.gpr dst &&& ~~~vcpuMask8) ||| (b.gpr src &&& vcpuMask8))

def r2rXferOpw (dst src : Reg) (b : BitmapState) : BitmapState :=
  b.setGpr dst ((b.gpr dst &&& ~~~vcpuMask16) ||| (b.gpr src &&& vcpuMask16))

def r2rXferOpq (dst src : Reg) (b : BitmapState) : BitmapState :=
  b.setGpr dst (b.gpr src)

def m2rXferOpbU (dst : Reg) (src : AddrInt) : BitmapState → Option BitmapState :=
  withEntry src fun entry b ↦
    b.setGpr dst ((b.gpr dst &&& ~~~(vcpuMask8 <<< 1)) |||
      (((entry >>> virt2bit src) <<< 1) &&& (vcpuMask8 <<< 1)))

def m2rXferOpbL (dst : Reg) (src : AddrInt) : BitmapState → Option BitmapState :=
  withEntry src fun entry b ↦
    b.setGpr dst ((b.gpr dst &&& ~~~vcpuMask8) ||| ((entry >>> virt2bit src) &&& vcpuMask8))

def m2rXferOpw (dst : Reg) (src : AddrInt) : BitmapState → Option BitmapState :=
  withEntry src fun entry b ↦
    b.setGpr dst ((b.gpr dst &&& ~~~vcpuMask16) ||| ((entry >>> virt2bit src) &&& vcpuMask16))

def m2rXferOpq (dst : Reg) (src : AddrInt) : BitmapState → Option BitmapState :=
  withEntry src fun entry b ↦
    b.setGpr dst ((entry >>> virt2bit src) &&& vcpuMask64)

def r2mXferOpbU (dst : AddrInt) (src : Reg) : BitmapState → Option BitmapState :=
  withEntry dst fun entry b ↦
    b.setEntry dst ((entry &&& ~~~(byteMask <<< virt2bit dst)) |||
      (((b.gpr src &&& (vcpuMask8 <<< 1)) >>> 1) <<< virt2bit dst))

def r2mXferOpbL (dst : AddrInt) (src : Reg) : BitmapState → Option BitmapState :=
  withEntry dst fun entry b ↦
    b.setEntry dst ((entry &&& ~~~(byteMask <<< virt2bit dst)) |||
      ((b.gpr src &&& vcpuMask8) <<< virt2bit dst))

def r2mXferOpw (dst : AddrInt) (src : Reg) : BitmapState → Option BitmapState :=
  withEntry dst fun entry b ↦
    b.setEntry dst ((entry &&& ~~~(wordMask <<< virt2bit dst)) |||
      (toUint16 (b.gpr src &&& vcpuMask16) <<< virt2bit dst))

def r2mXferOpq (dst : AddrInt) (src : Reg) : BitmapState → Option BitmapState :=
  withEntry dst fun entry b ↦
    b.setEntry dst ((entry &&& ~~~(quadMask <<< virt2bit dst)) |||
      (toUint16 (b.gpr src &&& vcpuMask64) <<< virt2bit dst))

def m2mXferOpb (dst src : AddrInt) (b : BitmapState) : Option BitmapState := do
  let b ← b.virt2entry src
  let b ← b.virt2entry dst
  some (b.setEntry dst ((b.entry dst &&& ~~~(byteMask <<< virt2bit dst)) |||
    (((b.entry src >>> virt2bit src) &&& byteMask) <<< virt2bit dst)))

def m2mXferOpw (dst src : AddrInt) (b : BitmapState) : Option BitmapState := do
  let b ← b.virt2entry src
  let b ← b.virt2entry dst
  some (b.setEntry dst ((b.entry dst &&& ~~~(wordMask <<< virt2bit dst)) |||
    (((b.entry src >>> virt2bit src) &&& wordMask) <<< virt2bit dst)))

def m2mXferOpq (dst src : AddrInt) (b : BitmapState) : Option BitmapState := do
  let b ← b.virt2entry src
  let b ← b.virt2entry dst
  some (b.setEntry dst ((b.entry dst &&& ~~~(quadMask <<< virt2bit dst)) |||
    (((b.entry src >>> virt2bit src) &&& quadMask) <<< virt2bit dst)))

def r2rBinaryOpbUl (dst src : Reg) (b : BitmapState) : BitmapState :=
  b.setGpr dst (b.gpr dst ||| ((b.gpr src &&& vcpuMask8) <<< 1))

def r2rBinaryOpbLu (dst src : Reg) (b : BitmapState) : BitmapState :=
  b.setGpr dst (b.gpr dst ||| ((b.gpr src &&& (vcpuMask8 <<< 1)) >>> 1))

def r2rBinaryOpbU (dst src : Reg) (b : BitmapState) : BitmapState :=
  b.setGpr dst (b.gpr dst ||| (b.gpr src &&& (vcpuMask8 <<< 1)))

def r2rBinaryOpbL (dst src : Reg) (b : BitmapState) : BitmapState :=
  b.setGpr dst (b.gpr dst ||| (b.gpr src &&& vcpuMask8))

def r2rBinaryOpw (dst src : Reg) (b : BitmapState) : BitmapState :=
  b.setGpr dst (b.gpr dst ||| (b.gpr src &&& vcpuMask16))

def r2rBinaryOpq (dst src : Reg) (b : BitmapState) : BitmapState :=
  b.setGpr dst (b.gpr dst ||| b.gpr src)

def m2rBinaryOpbU (dst : Reg) (src : AddrInt) : BitmapState → Option BitmapState :=
  withEntry src fun entry b ↦
    b.setGpr dst (b.gpr dst ||| (((entry >>> virt2bit src) &&& vcpuMask8) <<< 1))

def m2rBinaryOpbL (dst : Reg) (src : AddrInt) : BitmapState → Option BitmapState :=
  withEntry src fun entry b ↦
    b.setGpr dst (b.gpr dst ||| ((entry >>> virt2bit src) &&& vcpuMask8))

def m2rBinaryOpw (dst : Reg) (src : AddrInt) : BitmapState → Option BitmapState :=
  withEntry src fun entry b ↦
    b.setGpr dst (b.gpr dst ||| ((entry >>> virt2bit src) &&& vcpuMask16))

def m2rBinaryOpq (dst : Reg) (src : AddrInt) : BitmapState → Option BitmapState :=
  withEntry src fun entry b ↦
    b.setGpr dst (b.gpr dst ||| ((entry >>> virt2bit src) &&& vcpuMask64))

def r2mBinaryOpbU (dst : AddrInt) (src : Reg) : BitmapState → Option BitmapState :=
  withEntry dst fun entry b ↦
    b.setEntry dst (entry ||| (((b.gpr src &&& (vcpuMask8 <<< 1)) >>> 1) <<< virt2bit dst))

def r2mBinaryOpbL (dst : AddrInt) (src : Reg) : BitmapState → Option BitmapState :=
  withEntry dst fun entry b ↦
    b.setEntry dst (entry ||| ((b.gpr src &&& vcpuMask8) <<< virt2bit dst))

def r2mBinaryOpw (dst : AddrInt) (src : Reg) : BitmapState → Option BitmapState :=
  withEntry dst fun entry b ↦
    b.setEntry dst (entry ||| ((b.gpr src &&& vcpuMask16) <<< virt2bit dst))

def r2mBinaryOpq (dst : AddrInt) (src : Reg) : BitmapState → Option BitmapState :=
  withEntry dst fun entry b ↦
    b.setEntry dst (entry ||| ((b.gpr src &&& vcpuMask64) <<< virt2bit dst))

def rClrq (reg : Reg) (b : BitmapState) : BitmapState :=
  b.setGpr reg 0

def rClrw (reg : Reg) (b : BitmapState) : BitmapState :=
  b.setGpr reg (b.gpr reg &&& ~~~vcpuMask16)

def rClrbU (reg : Reg) (b : BitmapState) : BitmapState :=
  b.setGpr reg (b.gpr reg &&& ~~~(vcpuMask8 <<< 1))

def rClrbL (reg : Reg) (b : BitmapState) : BitmapState :=
  b.setGpr reg (b.gpr reg &&& ~~~vcpuMask8)

def movzxR2rOpwbU (dst src : Reg) (b : BitmapState) : BitmapState :=
  b.setGpr dst ((b.gpr dst &&& ~~~vcpuMask16) ||| ((b.gpr src &&& (vcpuMask8 <<< 1)) >>> 1))

def movzxR2rOpwbL (dst src : Reg) (b : BitmapState) : BitmapState :=
  b.setGpr dst ((b.gpr dst &&& ~~~vcpuMask16) ||| (b.gpr src &&& vcpuMask8))

def movzxR2rOpqbU (dst src : Reg) (b : BitmapState) : BitmapState :=
  b.setGpr dst ((b.gpr src &&& (vcpuMask8 <<< 1)) >>> 1)

def movzxR2rOpqbL (dst src : Reg) (b : BitmapState) : BitmapState :=
  b.setGpr dst (b.gpr src &&& vcpuMask8)

def movzxR2rOpqw (dst src : Reg) (b : BitmapState) : BitmapState :=
  b.setGpr dst (b.gpr src &&& vcpuMask16)

def movzxM2rOpwb (dst : Reg) (src : AddrInt) : BitmapState → Option BitmapState :=
  withEntry src fun entry b ↦
    b.setGpr dst ((b.gpr dst &&& ~~~vcpuMask16) ||| ((entry >>> virt2bit src) &&& vcpuMask8))

def movzxM2rOpqb (dst : Reg) (src : AddrInt) : BitmapState → Option BitmapState :=
  withEntry src fun entry b ↦
    b.setGpr dst ((entry >>> virt2bit src) &&& vcpuMask8)

def movzxM2rOpqw (dst : Reg) (src : AddrInt) : BitmapState → Option BitmapState :=
  withEntry src fun entry b ↦
    b.setGpr dst ((entry >>> virt2bit src) &&& vcpuMask16)

def xchgR2rOpbUl (dst src : Reg) (b : BitmapState) : BitmapState :=
  let tmpTag := b.gpr dst &&& (vcpuMask8 <<< 1)
  let b := b.setGpr dst ((b.gpr dst &&& ~~~(vcpuMask8 <<< 1)) ||| ((b.gpr src &&& vcpuMask8) <<< 1))
  b.setGpr src ((b.gpr src &&& ~~~vcpuMask8) ||| (tmpTag >>> 1))

def xchgR2rOpbLu (dst src : Reg) (b : BitmapState) : BitmapState :=
  let tmpTag := b.gpr dst &&& vcpuMask8
  let b := b.setGpr dst ((b.gpr dst &&& ~~~vcpuMask8) ||| ((b.gpr src &&& (vcpuMask8 <<< 1)) >>> 1))
  b.setGpr src ((b.gpr src &&& ~~~(vcpuMask8 <<< 1)) ||| (tmpTag <<< 1))

def xchgR2rOpbU (dst src : Reg) (b : BitmapState) : BitmapState :=
  let tmpTag := b.gpr dst &&& (vcpuMask8 <<< 1)
  let b := b.setGpr dst ((b.gpr dst &&& ~~~(vcpuMask8 <<< 1)) ||| (b.gpr src &&& (vcpuMask8 <<< 1)))
  b.setGpr src ((b.gpr src &&& ~~~(vcpuMask8 <<< 1)) ||| tmpTag)

def xchgR2rOpbL (dst src : Reg) (b : BitmapState) : BitmapState :=
  let tmpTag := b.gpr dst &&& vcpuMask8
  let b := b.setGpr dst ((b.gpr dst &&& ~~~vcpuMask8) ||| (b.gpr src &&& vcpuMask8))
  b.setGpr src ((b.gpr src &&& ~~~vcpuMask8) ||| tmpTag)

def xchgR2rOpw (dst src : Reg) (b : BitmapState) : BitmapState :=
  let tmpTag := b.gpr dst &&& vcpuMask16
  let b := b.setGpr dst ((b.gpr dst &&& ~~~vcpuMask16) ||| (b.gpr src &&& vcpuMask16))
  b.setGpr src ((b.gpr src &&& ~~~vcpuMask16) ||| tmpTag)

def xchgR2rOpq (dst src : Reg) (b : BitmapState) : BitmapState :=
  let tmpTag := b.gpr dst
  let b := b.setGpr dst (b.gpr src)
  b.setGpr src tmpTag

def xchgM2rOpbU (dst : Reg) (src : AddrInt) : BitmapState → Option BitmapState :=
  withEntry src fun entry b ↦
    let tmpTag := b.gpr dst &&& (vcpuMask8 <<< 1)
    let b := b.setGpr dst ((b.gpr dst &&& ~~~(vcpuMask8 <<< 1)) |||
      (((entry >>> virt2bit src) <<< 1) &&& (vcpuMask8 <<< 1)))
    b.setEntry src ((entry &&& ~~~(byteMask <<< virt2bit src)) |||
      ((tmpTag >>> 1) <<< virt2bit src))

def xchgM2rOpbL (dst : Reg) (src : AddrInt) : BitmapState → Option BitmapState :=
  withEntry src fun entry b ↦
    let tmpTag := b.gpr dst &&& vcpuMask8
    let b := b.setGpr dst ((b.gpr dst &&& ~~~vcpuMask8) |||
      ((entry >>> virt2bit src) &&& vcpuMask8))
    b.setEntry src ((entry &&& ~~~(byteMask <<< virt2bit src)) ||| (tmpTag <<< virt2bit src))

def xchgM2rOpw (dst : Reg) (src : AddrInt) : BitmapState → Option BitmapState :=
  withEntry src fun entry b ↦
    let tmpTag := b.gpr dst &&& vcpuMask16
    let b := b.setGpr dst ((b.gpr dst &&& ~~~vcpuMask16) |||
      ((entry >>> virt2bit src) &&& vcpuMask16))
    b.setEntry src ((entry &&& ~~~(wordMask <<< virt2bit src)) |||
      (toUint16 tmpTag <<< virt2bit src))

def xchgM2rOpq (dst : Reg) (src : AddrInt) : BitmapState → Option BitmapState :=
  withEntry src fun entry b ↦
    let tmpTag := b.gpr dst
    let b := b.setGpr dst ((entry >>> virt2bit src) &&& vcpuMask64)
    b.setEntry src ((entry &&& ~~~(quadMask <<< virt2bit src)) |||
      (toUint16 tmpTag <<< virt2bit src))

def xaddR2rOpbUl (dst src : Reg) (b : BitmapState) : BitmapState :=
  let tmpTag := b.gpr dst &&& (vcpuMask8 <<< 1)
  let b := b.setGpr dst (b.gpr dst ||| ((b.gpr src &&& vcpuMask8) <<< 1))
  b.setGpr src ((b.gpr src &&& ~~~vcpuMask8) ||| (tmpTag >>> 1))

def xaddR2rOpbLu (dst src : Reg) (b : BitmapState) : BitmapState :=
  let tmpTag := b.gpr dst &&& vcpuMask8
  let b := b.setGpr dst (b.gpr dst ||| ((b.gpr src &&& (vcpuMask8 <<< 1)) >>> 1))
  b.setGpr src ((b.gpr src &&& ~~~(vcpuMask8 <<< 1)) ||| (tmpTag <<< 1))

def xaddR2rOpbU (dst src : Reg) (b : BitmapState) : BitmapState :=
  let tmpTag := b.gpr dst &&& (vcpuMask8 <<< 1)
  let b := b.setGpr dst (b.gpr dst ||| (b.gpr src &&& (vcpuMask8 <<< 1)))
  b.setGpr src ((b.gpr src &&& ~~~(vcpuMask8 <<< 1)) ||| tmpTag)

def xaddR2rOpbL (dst src : Reg) (b : BitmapState) : BitmapState :=
  let tmpTag := b.gpr dst &&& vcpuMask8
  let b := b.setGpr dst (b.gpr dst ||| (b.gpr src &&& vcpuMask8))
  b.setGpr src ((b.gpr src &&& ~~~vcpuMask8) ||| tmpTag)

def xaddR2rOpw (dst src : Reg) (b : BitmapState) : BitmapState :=
  let tmpTag := b.gpr dst &&& vcpuMask16
  let b := b.setGpr dst (b.gpr dst ||| (b.gpr src &&& vcpuMask16))
  b.setGpr src ((b.gpr src &&& ~~~vcpuMask16) ||| tmpTag)

def xaddR2rOpq (dst src : Reg) (b : BitmapState) : BitmapState :=
  let tmpTag := b.gpr dst
  let b := b.setGpr dst (b.gpr dst ||| b.gpr src)
  b.setGpr src tmpTag

def xaddR2mOpbU (src : Reg) (dst : AddrInt) : BitmapState → Option BitmapState :=
  withEntry dst fun entry b ↦
    let tmpTag := (entry >>> virt2bit dst) &&& byteMask
    let b := b.setEntry dst (entry ||| (((b.gpr src &&& (vcpuMask8 <<< 1)) >>> 1) <<< virt2bit dst))
    b.setGpr src ((b.gpr src &&& ~~~(vcpuMask8 <<< 1)) ||| (tmpTag <<< 1))

def xaddR2mOpbL (src : Reg) (dst : AddrInt) : BitmapState → Option BitmapState :=
  withEntry dst fun entry b ↦
    let tmpTag := (entry >>> virt2bit dst) &&& byteMask
    let b := b.setEntry dst (entry ||| ((b.gpr src &&& vcpuMask8) <<< virt2bit dst))
    b.setGpr src ((b.gpr src &&& ~~~vcpuMask8) ||| tmpTag)

def xaddR2mOpw (src : Reg) (dst : AddrInt) : BitmapState → Option BitmapState :=
  withEntry dst fun entry b ↦
    let tmpTag := (entry >>> virt2bit dst) &&& wordMask
    let b := b.setEntry dst (entry ||| ((b.gpr src &&& vcpuMask16) <<< virt2bit dst))
    b.setGpr src ((b.gpr src &&& ~~~vcpuMask16) ||| tmpTag)

def xaddR2mOpq (src : Reg) (dst : AddrInt) : BitmapState → Option BitmapState :=
  withEntry dst fun entry b ↦
    let tmpTag := (entry >>> virt2bit dst) &&& quadMask
    let b := b.setEntry dst (entry ||| ((b.gpr src &&& vcpuMask64) <<< virt2bit dst))
    b.setGpr src tmpTag

def leaR2rOpw (dst base index : Reg) (b : BitmapState) : BitmapState :=
  b.setGpr dst (((b.gpr dst &&& ~~~vcpuMask16) ||| (b.gpr base &&& vcpuMask16)) |||
      (b.gpr index &&& vcpuMask16))

def leaR2rOpq (dst base index : Reg) (b : BitmapState) : BitmapState :=
  b.setGpr dst (b.gpr base ||| b.gpr index)

/-- Tables that extend a one-bit tag to 16 bits. -/
def map8l16 : List (BitVec 32) := [0, vcpuMask16]
def map8h16 : List (BitVec 32) := [0, 0, vcpuMask16]

def r2rTernaryOpbU (src : Reg) (b : BitmapState) : BitmapState :=
  let tmpTag := b.gpr src &&& (vcpuMask8 <<< 1)
  b.setGpr gprEax (b.gpr gprEax ||| map8h16.getD tmpTag.toNat 0)

def r2rTernaryOpbL (src : Reg) (b : BitmapState) : BitmapState :=
  let tmpTag := b.gpr src &&& vcpuMask8
  b.setGpr gprEax (b.gpr gprEax ||| map8l16.getD tmpTag.toNat 0)

def r2rTernaryOpw (src : Reg) (b : BitmapState) : BitmapState :=
  let tmpTag := b.gpr src &&& vcpuMask16
  let b := b.setGpr gprEdx (b.gpr gprEdx ||| tmpTag)
  b.setGpr gprEax (b.gpr gprEax ||| tmpTag)

def r2rTernaryOpq (src : Reg) (b : BitmapState) : BitmapState :=
  let b := b.setGpr gprEdx (b.gpr gprEdx ||| b.gpr src)
  b.setGpr gprEax (b.gpr gprEax ||| b.gpr src)

def m2rTernaryOpb (src : AddrInt) : BitmapState → Option BitmapState :=
  withEntry src fun entry b ↦
    let tmpTag := (entry >>> virt2bit src) &&& vcpuMask8
    b.setGpr gprEax (b.gpr gprEax ||| map8l16.getD tmpTag.toNat 0)

def m2rTernaryOpw (src : AddrInt) : BitmapState → Option BitmapState :=
  withEntry src fun entry b ↦
    let tmpTag := (entry >>> virt2bit src) &&& vcpuMask16
    let b := b.setGpr gprEdx (b.gpr gprEdx ||| tmpTag)
    b.setGpr gprEax (b.gpr gprEax ||| tmpTag)

def m2rTernaryOpq (src : AddrInt) : BitmapState → Option BitmapState :=
  withEntry src fun entry b ↦
    let tmpTag := (entry >>> virt2bit src) &&& vcpuMask64
    let b := b.setGpr gprEdx (b.gpr gprEdx ||| tmpTag)
    b.setGpr gprEax (b.gpr gprEax ||| tmpTag)

def cmpxchgR2rOpqFast (dstVal : AddrInt) (src : Reg) (srcVal : AddrInt) (b : BitmapState) :
    BitmapState × Bool :=
  let b := b.setGpr gprScratch (b.gpr gprEax)
  (b.setGpr gprEax (b.gpr src), dstVal == srcVal)

def cmpxchgR2rOpqSlow (dst src : Reg) (b : BitmapState) : BitmapState :=
  let b := b.setGpr gprEax (b.gpr gprScratch)
  b.setGpr dst (b.gpr src)

def cmpxchgR2rOpwFast (dstVal : AddrInt) (src : Reg) (srcVal : AddrInt) (b : BitmapState) :
    BitmapState × Bool :=
  let b := b.setGpr gprScratch (b.gpr gprEax)
  (b.setGpr gprEax ((b.gpr gprEax &&& ~~~vcpuMask16) ||| (b.gpr src &&& vcpuMask16)),
    dstVal == srcVal)

def cmpxchgR2rOpwSlow (dst src : Reg) (b : BitmapState) : BitmapState :=
  let b := b.setGpr gprEax (b.gpr gprScratch)
  b.setGpr dst ((b.gpr dst &&& ~~~vcpuMask16) ||| (b.gpr src &&& vcpuMask16))

def cmpxchgM2rOpqFast (dstVal src : AddrInt) (mem : BitVec 64) (b : BitmapState) :
    Option (BitmapState × Bool) :=
  let b := b.setGpr gprScratch (b.gpr gprEax)
  (withEntry src (fun entry b ↦
    b.setGpr gprEax ((entry >>> virt2bit src) &&& vcpuMask64)) b).map fun b ↦ (b, dstVal == mem)

def cmpxchgM2rOpwFast (dstVal src : AddrInt) (mem : BitVec 16) (b : BitmapState) :
    Option (BitmapState × Bool) :=
  let b := b.setGpr gprScratch (b.gpr gprEax)
  (withEntry src (fun entry b ↦
    b.setGpr gprEax ((b.gpr gprEax &&& ~~~vcpuMask16) |||
      ((entry >>> virt2bit src) &&& vcpuMask16))) b).map fun b ↦
  (b, dstVal.setWidth 16 == mem)

def cmpxchgR2mOpqSlow (dst : AddrInt) (src : Reg) (b : BitmapState) : Option BitmapState :=
  let b := b.setGpr gprEax (b.gpr gprScratch)
  withEntry dst (fun entry b ↦
    b.setEntry dst ((entry &&& ~~~(quadMask <<< virt2bit dst)) |||
      (toUint16 (b.gpr src &&& vcpuMask64) <<< virt2bit dst))) b

def cmpxchgR2mOpwSlow (dst : AddrInt) (src : Reg) (b : BitmapState) : Option BitmapState :=
  let b := b.setGpr gprEax (b.gpr gprScratch)
  withEntry dst (fun entry b ↦
    b.setEntry dst ((entry &&& ~~~(wordMask <<< virt2bit dst)) |||
      (toUint16 (b.gpr src &&& vcpuMask16) <<< virt2bit dst))) b

end TheiaTaint.Engine.Bitmap
