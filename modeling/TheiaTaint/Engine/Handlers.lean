import Mathlib
import TheiaTaint.Engine.Instr
import TheiaTaint.Engine.ZeroExtension

namespace TheiaTaint.Engine

open Foundations.Moves Tags.Directory ZeroExtension

/-- The analysis handlers of the custom-tag build, without the bit scans of a
memory operand. -/
inductive Handler
  | narrow (i : Instr)
  | long (i : Instr32)
  | r2mXferOpl (dst : AddrInt) (src : Reg)
  | m2mXferOpl (dst src : AddrInt)
  | r2mBinaryOpl (dst : AddrInt) (src : Reg)
  | rClrl4
  | rClrl2
  | mClrn (addr : AddrInt) (n : BitVec 32)
  | movsxR2rOpwbU (dst src : Reg)
  | movsxR2rOpwbL (dst src : Reg)
  | movsxR2rOpqbU (dst src : Reg)
  | movsxR2rOpqbL (dst src : Reg)
  | movsxR2rOpqw (dst src : Reg)
  | movsxdR2rOpql (dst src : Reg)
  | movsxM2rOpwb (dst : Reg) (src : AddrInt)
  | movsxM2rOpqb (dst : Reg) (src : AddrInt)
  | movsxM2rOpqw (dst : Reg) (src : AddrInt)
  | movsxdM2rOpql (dst : Reg) (src : AddrInt)
  | cwde
  | cdqe
  | cmpxchgR2rOpqFast (dstVal : AddrInt) (src : Reg) (srcVal : AddrInt)
  | cmpxchgR2rOpqSlow (dst src : Reg)
  | cmpxchgR2rOplFast (dstVal : AddrInt) (src : Reg) (srcVal : AddrInt)
  | cmpxchgR2rOplSlow (dst src : Reg)
  | cmpxchgR2rOpwFast (dstVal : AddrInt) (src : Reg) (srcVal : AddrInt)
  | cmpxchgR2rOpwSlow (dst src : Reg)
  | cmpxchgM2rOpqFast (dstVal src : AddrInt) (mem : BitVec 64)
  | cmpxchgR2mOpqSlow (dst : AddrInt) (src : Reg)
  | cmpxchgM2rOplFast (dstVal src : AddrInt) (mem : BitVec 32)
  | cmpxchgR2mOplSlow (dst : AddrInt) (src : Reg)
  | cmpxchgM2rOpwFast (dstVal src : AddrInt) (mem : BitVec 16)
  | cmpxchgR2mOpwSlow (dst : AddrInt) (src : Reg)
  | r2mXferOpbn (dst count : AddrInt) (df : Bool)
  | r2mXferOpwn (dst count : AddrInt) (df : Bool)
  | r2mXferOpln (dst count : AddrInt) (df : Bool)
  | r2mXferOpqn (dst count : AddrInt) (df : Bool)
  | r2rBitscanOpq (dst src : Reg)
  | r2rBitscanOpl (dst src : Reg)
  | r2rBitscanOpw (dst src : Reg)
  | m2rRestoreOpw (src : AddrInt)
  | m2rRestoreOpl (src : AddrInt)
  | r2mSaveOpw (dst : AddrInt)
  | r2mSaveOpl (dst : AddrInt)

variable {S T : Type*} [SemilatticeSup T] [OrderBot T]

/-- The tags after the handler. The two paths of a `cmpxchg` are handlers of
their own, and what a fast path returns only decides whether the slow one runs. -/
def Handler.run [TagStore S T] : Handler → S → S
  | .narrow i => i.custom
  | .long i => i.run
  | .r2mXferOpl dst src => Custom.r2mXferOpl dst src
  | .m2mXferOpl dst src => Custom.m2mXferOpl dst src
  | .r2mBinaryOpl dst src => Custom.r2mBinaryOpl dst src
  | .rClrl4 => Custom.rClrl4
  | .rClrl2 => Custom.rClrl2
  | .mClrn addr n => Custom.mClrn addr n
  | .movsxR2rOpwbU dst src => Custom.movsxR2rOpwbU dst src
  | .movsxR2rOpwbL dst src => Custom.movsxR2rOpwbL dst src
  | .movsxR2rOpqbU dst src => Custom.movsxR2rOpqbU dst src
  | .movsxR2rOpqbL dst src => Custom.movsxR2rOpqbL dst src
  | .movsxR2rOpqw dst src => Custom.movsxR2rOpqw dst src
  | .movsxdR2rOpql dst src => Custom.movsxdR2rOpql dst src
  | .movsxM2rOpwb dst src => Custom.movsxM2rOpwb dst src
  | .movsxM2rOpqb dst src => Custom.movsxM2rOpqb dst src
  | .movsxM2rOpqw dst src => Custom.movsxM2rOpqw dst src
  | .movsxdM2rOpql dst src => Custom.movsxdM2rOpql dst src
  | .cwde => Custom.cwde
  | .cdqe => Custom.cdqe
  | .cmpxchgR2rOpqFast dstVal src srcVal => Prod.fst ∘ Custom.cmpxchgR2rOpqFast dstVal src srcVal
  | .cmpxchgR2rOpqSlow dst src => Custom.cmpxchgR2rOpqSlow dst src
  | .cmpxchgR2rOplFast dstVal src srcVal => Prod.fst ∘ Custom.cmpxchgR2rOplFast dstVal src srcVal
  | .cmpxchgR2rOplSlow dst src => Custom.cmpxchgR2rOplSlow dst src
  | .cmpxchgR2rOpwFast dstVal src srcVal => Prod.fst ∘ Custom.cmpxchgR2rOpwFast dstVal src srcVal
  | .cmpxchgR2rOpwSlow dst src => Custom.cmpxchgR2rOpwSlow dst src
  | .cmpxchgM2rOpqFast dstVal src mem => Prod.fst ∘ Custom.cmpxchgM2rOpqFast dstVal src mem
  | .cmpxchgR2mOpqSlow dst src => Custom.cmpxchgR2mOpqSlow dst src
  | .cmpxchgM2rOplFast dstVal src mem => Prod.fst ∘ Custom.cmpxchgM2rOplFast dstVal src mem
  | .cmpxchgR2mOplSlow dst src => Custom.cmpxchgR2mOplSlow dst src
  | .cmpxchgM2rOpwFast dstVal src mem => Prod.fst ∘ Custom.cmpxchgM2rOpwFast dstVal src mem
  | .cmpxchgR2mOpwSlow dst src => Custom.cmpxchgR2mOpwSlow dst src
  | .r2mXferOpbn dst count df => Custom.r2mXferOpbn dst count df
  | .r2mXferOpwn dst count df => Custom.r2mXferOpwn dst count df
  | .r2mXferOpln dst count df => Custom.r2mXferOpln dst count df
  | .r2mXferOpqn dst count df => Custom.r2mXferOpqn dst count df
  | .r2rBitscanOpq dst src => Custom.r2rBitscanOpq dst src
  | .r2rBitscanOpl dst src => Custom.r2rBitscanOpl dst src
  | .r2rBitscanOpw dst src => Custom.r2rBitscanOpw dst src
  | .m2rRestoreOpw src => Custom.m2rRestoreOpw src
  | .m2rRestoreOpl src => Custom.m2rRestoreOpl src
  | .r2mSaveOpw dst => Custom.r2mSaveOpw dst
  | .r2mSaveOpl dst => Custom.r2mSaveOpl dst

/-- A property of tags that the empty tag has and joins keep. -/
structure Closed (p : T → Prop) : Prop where
  bot : p clearedVal
  sup : ∀ t u, p t → p u → p (tagCombine t u)

def Everywhere (p : T → Prop) (s : TagState T) : Prop := ∀ l : Loc, p (s.get l)

def Preserves (p : T → Prop) (f : TagState T → TagState T) : Prop :=
  ∀ s, Everywhere p s → Everywhere p (f s)

end TheiaTaint.Engine
