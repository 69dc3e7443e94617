import Mathlib
import TheiaTaint.Syscalls.Context

namespace TheiaTaint.Syscalls

open Tags.Directory

-- Sizes in bytes, for Linux on x86-64.
def pageSz : BitVec 64 := 4096
def sizeofInt : BitVec 64 := 4
def sizeofShort : BitVec 64 := 2
def sizeofLong : BitVec 64 := 8
def sizeofSizeT : BitVec 64 := 8
def sizeofGidT : BitVec 64 := 4
def sizeofSocklenT : BitVec 64 := 4
def sizeofTimespec : BitVec 64 := 16
def sizeofIoEvent : BitVec 64 := 32
def sizeofEpollEvent : BitVec 64 := 12
def sizeofPollfd : BitVec 64 := 8
def sizeofMsghdr : BitVec 64 := 56
def sizeofMmsghdr : BitVec 64 := 64
def sizeofShmidDs : BitVec 64 := 112
def sizeofShminfo : BitVec 64 := 72
def sizeofSemidDs : BitVec 64 := 104
def sizeofSeminfo : BitVec 64 := 40
def sizeofMsqidDs : BitVec 64 := 120
def sizeofMsginfo : BitVec 64 := 32
def sizeofFlock : BitVec 64 := 32
def sizeofFOwnerEx : BitVec 64 := 8
def sizeofIfDqinfo : BitVec 64 := 24
def sizeofIfDqblk : BitVec 64 := 72
def sizeofFsQuotaStat : BitVec 64 := 80
def sizeofFsDiskQuota : BitVec 64 := 112

/-- The body of a hook after `if ((long)ctx->ret <= 0) return;`. A hook has no clears when a
load faults or a loop does not end. -/
def whenPositive (ctx : SyscallCtx) (body : Option (List Clear)) : Option (List Clear) :=
  if ctx.ret.toInt ≤ 0 then some [] else body

/-- The body of a hook after `if ((long)ctx->ret < 0) return;`. -/
def whenNonneg (ctx : SyscallCtx) (body : Option (List Clear)) : Option (List Clear) :=
  if ctx.ret.toInt < 0 then some [] else body

/-- The body of a hook after `if (ctx->ret < 0) return;`, where `ret` is unsigned. -/
def whenNonnegUnsigned (ctx : SyscallCtx) (body : Option (List Clear)) : Option (List Clear) :=
  if ctx.ret < 0 then some [] else body

def clearRet (i : Fin 6) (ctx : SyscallCtx) : Option (List Clear) :=
  whenPositive ctx (some [⟨ctx.arg i, ctx.ret⟩])

def postReadHook : SyscallCtx → Option (List Clear) := clearRet 1
def postReadlinkatHook : SyscallCtx → Option (List Clear) := clearRet 2
def postLookupDcookieHook : SyscallCtx → Option (List Clear) := clearRet 1
def postGetdentsHook : SyscallCtx → Option (List Clear) := clearRet 1
def postGetcwdHook : SyscallCtx → Option (List Clear) := clearRet 0
def postModifyLdtHook : SyscallCtx → Option (List Clear) := clearRet 1

/-- `ret` elements at an argument that may be `NULL`. -/
def clearRetNonnull (i : Fin 6) (size : BitVec 64) (ctx : SyscallCtx) : Option (List Clear) :=
  whenPositive ctx (some (if ctx.arg i = 0 then [] else [⟨ctx.arg i, size * ctx.ret⟩]))

def postGetgroupsHook : SyscallCtx → Option (List Clear) := clearRetNonnull 1 sizeofGidT
def postListxattrHook : SyscallCtx → Option (List Clear) := clearRetNonnull 1 1
def postGetxattrHook : SyscallCtx → Option (List Clear) := clearRetNonnull 2 1

def mapFailed : BitVec 64 := -1
def mapGrowsdown : BitVec 32 := 0x100

/-- The length of a mapping in whole pages; a length of whole pages gets one more. -/
def mmapOffset (length : BitVec 64) : BitVec 64 :=
  if length < pageSz then pageSz else length + pageSz - length % pageSz

def growsdown (ctx : SyscallCtx) : Bool := (ctx.arg 3).setWidth 32 &&& mapGrowsdown ≠ 0

def postMmapHook (ctx : SyscallCtx) : Option (List Clear) :=
  let offset := mmapOffset (ctx.arg 1)
  if ctx.ret = mapFailed then some []
  else some [⟨if growsdown ctx then ctx.ret - offset else ctx.ret, offset⟩]

/-- The loop over an I/O vector of `count` elements from element `i` on, with `tot`
bytes left. Callers that test `tot > iov_len` and `tot >= iov_len` do the same. -/
def iovecLoop (mem : Memory) (iov : AddrInt) : ℕ → ℕ → BitVec 64 → Option (List Clear)
  | 0, _, _ => some []
  | count + 1, i, tot =>
    if tot = 0 then some []
    else do
      let v ← mem.iovec iov i
      let iovTot := if v.len ≤ tot then v.len else tot
      let rest ← iovecLoop mem iov count (i + 1) (tot - iovTot)
      return ⟨v.base, iovTot⟩ :: rest

def postReadvHook (mem : Memory) (ctx : SyscallCtx) : Option (List Clear) :=
  whenPositive ctx
    (iovecLoop mem (ctx.arg 1) ((ctx.arg 2).setWidth 32).toInt.toNat 0 ctx.ret)

def postEpollWaitHook (ctx : SyscallCtx) : Option (List Clear) :=
  whenPositive ctx (some [⟨ctx.arg 1, sizeofEpollEvent * ctx.ret⟩])

def postPollHook (ctx : SyscallCtx) : Option (List Clear) :=
  whenPositive ctx <| some <| (List.range (ctx.arg 1).toNat).map fun i ↦
    ⟨ctx.arg 0 + sizeofPollfd * BitVec.ofNat 64 i + 6, sizeofShort⟩

def postMqTimedreceiveHook (ctx : SyscallCtx) : Option (List Clear) :=
  whenPositive ctx <| some <|
    ⟨ctx.arg 1, ctx.ret⟩ :: if ctx.arg 3 ≠ 0 then [⟨ctx.arg 3, sizeofSizeT⟩] else []

def mpolFNode : BitVec 64 := 1
def mpolFAddr : BitVec 64 := 2
def mpolFMemsAllowed : BitVec 64 := 4

def postGetMempolicyHook (ctx : SyscallCtx) : Option (List Clear) :=
  let flags := ctx.arg 4
  whenNonneg ctx <| some <|
    if flags = 0 then [⟨ctx.arg 0, sizeofInt⟩, ⟨ctx.arg 1, sizeofLong⟩]
    else if flags &&& mpolFMemsAllowed ≠ 0 then [⟨ctx.arg 1, sizeofLong⟩]
    else if flags &&& mpolFAddr ≠ 0 ∧ flags &&& mpolFNode = 0 then
      (if ctx.arg 0 ≠ 0 then [⟨ctx.arg 0, sizeofInt⟩] else []) ++
        if ctx.arg 1 ≠ 0 then [⟨ctx.arg 1, sizeofLong⟩] else []
    else if flags &&& mpolFAddr ≠ 0 ∧ flags &&& mpolFNode ≠ 0 then [⟨ctx.arg 0, sizeofInt⟩]
    else if flags &&& mpolFNode ≠ 0 then [⟨ctx.arg 0, sizeofInt⟩]
    else []

def postIoGeteventsHook (ctx : SyscallCtx) : Option (List Clear) :=
  whenPositive ctx <| some <|
    ⟨ctx.arg 3, sizeofIoEvent * ctx.ret⟩ ::
      if ctx.arg 4 ≠ 0 then [⟨ctx.arg 4, sizeofTimespec⟩] else []

def postMincoreHook (ctx : SyscallCtx) : Option (List Clear) :=
  whenNonneg ctx (some [⟨ctx.arg 2, (ctx.arg 1 + pageSz - 1) / pageSz⟩])

def ipcFix : BitVec 64 := 256
def ipcStat : BitVec 32 := 2
def ipcInfo : BitVec 32 := 3

def ipcCmd (cmd : BitVec 64) : BitVec 32 :=
  (if cmd > ipcFix then cmd - ipcFix else cmd).setWidth 32

/-- The size that a `*ctl` command fills, if it fills anything. -/
def ctlSize (stat info : BitVec 32) (dsSize infoSize : BitVec 64) (cmd : BitVec 32) :
    Option (BitVec 64) :=
  if cmd = ipcStat ∨ cmd = stat then some dsSize
  else if cmd = ipcInfo ∨ cmd = info then some infoSize
  else none

def postShmctlHook (ctx : SyscallCtx) : Option (List Clear) :=
  whenNonneg ctx <| some <|
    match ctlSize 13 14 sizeofShmidDs sizeofShminfo (ipcCmd (ctx.arg 1)) with
    | some size => [⟨ctx.arg 2, size⟩]
    | none => []

def postMsgctlHook (ctx : SyscallCtx) : Option (List Clear) :=
  whenNonneg ctx <| some <|
    match ctlSize 11 12 sizeofMsqidDs sizeofMsginfo (ipcCmd (ctx.arg 1)) with
    | some size => [⟨ctx.arg 2, size⟩]
    | none => []

/-- The buffer is the pointer that the last argument points to. -/
def postSemctlHook (mem : Memory) (ctx : SyscallCtx) : Option (List Clear) :=
  whenNonneg ctx <|
    match ctlSize 18 19 sizeofSemidDs sizeofSeminfo (ipcCmd (ctx.arg 2)) with
    | some size => (mem.load (ctx.arg 3) 8).map fun buf ↦ [⟨buf, size⟩]
    | none => some []

def postRtSigpendingHook (ctx : SyscallCtx) : Option (List Clear) :=
  whenNonneg ctx (some [⟨ctx.arg 0, ctx.arg 1⟩])

def qGetfmt : BitVec 32 := 0x800004
def qGetinfo : BitVec 32 := 0x800005
def qGetquota : BitVec 32 := 0x800007
def qXgetquota : BitVec 32 := 0x5803
def qXgetqstat : BitVec 32 := 0x5805

def postQuotactlHook (ctx : SyscallCtx) : Option (List Clear) :=
  let cmd := (ctx.arg 0).setWidth 32
  whenNonneg ctx <| some <|
    if cmd = qGetfmt then [⟨ctx.arg 3, 4⟩]
    else if cmd = qGetinfo then [⟨ctx.arg 3, sizeofIfDqinfo⟩]
    else if cmd = qGetquota then [⟨ctx.arg 3, sizeofIfDqblk⟩]
    else if cmd = qXgetqstat then [⟨ctx.arg 3, sizeofFsQuotaStat⟩]
    else if cmd = qXgetquota then [⟨ctx.arg 3, sizeofFsDiskQuota⟩]
    else []

/-- An address and its length, which the program keeps at another address. -/
def addrWithLen (mem : Memory) (addr len : AddrInt) : Option (List Clear) :=
  (mem.load len 4).map fun num ↦ [⟨addr, num⟩, ⟨len, sizeofSocklenT⟩]

def postAcceptAccept4GetsocknameGetpeernameHook (mem : Memory) (ctx : SyscallCtx) :
    Option (List Clear) :=
  whenNonneg ctx (if ctx.arg 1 ≠ 0 then addrWithLen mem (ctx.arg 1) (ctx.arg 2) else some [])

def postRecvfromHook (mem : Memory) (ctx : SyscallCtx) : Option (List Clear) :=
  whenPositive ctx <| do
    let name ← if ctx.arg 4 ≠ 0 then addrWithLen mem (ctx.arg 4) (ctx.arg 5) else some []
    return ⟨ctx.arg 1, ctx.ret⟩ :: name

def postGetsockoptHook (mem : Memory) (ctx : SyscallCtx) : Option (List Clear) :=
  whenNonneg ctx (addrWithLen mem (ctx.arg 3) (ctx.arg 4))

/-- The name, control and flags fields of a message header, with what they point to. -/
def msghdrClears (mem : Memory) (msg : AddrInt) (controllenSize : BitVec 64) :
    Option (List Clear) := do
  let msgName ← mem.load msg 8
  let name ←
    if msgName ≠ 0 then
      (mem.load (msg + 8) 4).map fun num ↦ [⟨msgName, num⟩, ⟨msg + 8, sizeofSocklenT⟩]
    else some []
  let msgControl ← mem.load (msg + 32) 8
  let control ←
    if msgControl ≠ 0 then
      (mem.load (msg + 40) 8).map fun num ↦ [⟨msgControl, num⟩, ⟨msg + 40, controllenSize⟩]
    else some []
  return name ++ control ++ [⟨msg + 48, sizeofInt⟩]

def msghdrData (mem : Memory) (msg : AddrInt) (tot : BitVec 64) : Option (List Clear) := do
  let msgIovlen ← mem.load (msg + 24) 8
  let msgIov ← mem.load (msg + 16) 8
  iovecLoop mem msgIov msgIovlen.toNat 0 tot

def postRecvmsgHook (mem : Memory) (ctx : SyscallCtx) : Option (List Clear) :=
  whenPositive ctx <| do
    let fields ← msghdrClears mem (ctx.arg 1) sizeofSizeT
    let data ← msghdrData mem (ctx.arg 1) ctx.ret
    return fields ++ data

def postMsgrcvHook (ctx : SyscallCtx) : Option (List Clear) :=
  whenPositive ctx (some [⟨ctx.arg 1, ctx.ret + sizeofLong⟩])

def fGetlk : BitVec 32 := 5
def fGetlk64 : BitVec 32 := 12
def fGetownEx : BitVec 32 := 16

def postFcntlHook (ctx : SyscallCtx) : Option (List Clear) :=
  let cmd := (ctx.arg 1).setWidth 32
  whenNonneg ctx <| some <|
    if cmd = fGetlk ∨ cmd = fGetlk64 then [⟨ctx.arg 2, sizeofFlock⟩]
    else if cmd = fGetownEx then [⟨ctx.arg 2, sizeofFOwnerEx⟩]
    else []

def postSyslogHook (ctx : SyscallCtx) : Option (List Clear) :=
  let type := (ctx.arg 0).setWidth 32
  whenPositive ctx <| some <|
    if type = 2#32 ∨ type = 3#32 ∨ type = 4#32 then [⟨ctx.arg 1, ctx.ret⟩] else []

def postSysctlHook (mem : Memory) (ctx : SyscallCtx) : Option (List Clear) :=
  whenNonneg ctx <| do
    let sa := ctx.arg 0
    let newval ← mem.load (sa + 32) 8
    let newlen ← mem.load (sa + 40) 8
    let oldval ← mem.load (sa + 16) 8
    let old ←
      if oldval ≠ 0 then do
        let oldlenp ← mem.load (sa + 24) 8
        let oldlen ← mem.load oldlenp 8
        some [⟨oldval, oldlen⟩, ⟨oldlenp, sizeofSizeT⟩]
      else some []
    return ⟨newval, newlen⟩ :: old

def postRecvmmsgHeader (mem : Memory) (msg : AddrInt) : Option (List Clear) := do
  let fields ← msghdrClears mem msg sizeofInt
  let msgLen ← mem.load (msg + sizeofMsghdr) 4
  let data ← msghdrData mem msg msgLen
  return fields ++ ⟨msg + sizeofMsghdr, sizeofInt⟩ :: data

/-- The test of the timeout pointer ends with a semicolon, so it guards nothing. -/
def postRecvmmsgHook (mem : Memory) (ctx : SyscallCtx) : Option (List Clear) :=
  whenNonneg ctx <| do
    let headers ← (List.range ctx.ret.toNat).mapM fun i ↦
      postRecvmmsgHeader mem (ctx.arg 1 + sizeofMmsghdr * BitVec.ofNat 64 i)
    return headers.flatten ++ [⟨ctx.arg 4, sizeofTimespec⟩]

def archSetGs : BitVec 64 := 0x1001
def archSetFs : BitVec 64 := 0x1002

def postArchPrctlHook (ctx : SyscallCtx) : Option (List Clear) :=
  whenNonnegUnsigned ctx <| some <|
    if ctx.arg 0 = archSetFs ∨ ctx.arg 0 = archSetGs then [⟨ctx.arg 1, sizeofLong⟩] else []

/-- The field `msg_len` of the message header number `i`. -/
def msgLenField (msgvec : AddrInt) (i : ℕ) : Clear :=
  ⟨msgvec + sizeofMmsghdr * BitVec.ofNat 64 i + sizeofMsghdr, sizeofInt⟩

def postSendmmsgHook (ctx : SyscallCtx) : Option (List Clear) :=
  whenNonnegUnsigned ctx (some ((List.range ctx.ret.toNat).map (msgLenField (ctx.arg 1))))

/-- The loop of `post_process_vm_readv_hook`, for at most `fuel` turns. -/
def processVmReadvLoop (mem : Memory) (iov : AddrInt) : ℕ → ℕ → BitVec 64 → Option (List Clear)
  | 0, _, _ => none
  | fuel + 1, i, tot =>
    if 0 < tot then do
      let v ← mem.iovec iov i
      if v.len < tot then do
        let rest ← processVmReadvLoop mem iov fuel (i + 1) (tot - v.len)
        return ⟨v.base, v.len⟩ :: rest
      else do
        let rest ← processVmReadvLoop mem iov fuel (i + 1) 0
        return ⟨v.base, tot⟩ :: rest
    else some []

def postProcessVmReadvHook (fuel : ℕ) (mem : Memory) (ctx : SyscallCtx) : Option (List Clear) :=
  whenNonnegUnsigned ctx (processVmReadvLoop mem (ctx.arg 1) fuel 0 ctx.ret)

inductive PostHook
  | read
  | readlinkat
  | lookupDcookie
  | getdents
  | getcwd
  | modifyLdt
  | getgroups
  | listxattr
  | getxattr
  | mmap
  | readv
  | epollWait
  | poll
  | mqTimedreceive
  | getMempolicy
  | ioGetevents
  | mincore
  | shmctl
  | msgctl
  | semctl
  | rtSigpending
  | quotactl
  | acceptAccept4GetsocknameGetpeername
  | recvfrom
  | getsockopt
  | recvmsg
  | msgrcv
  | fcntl
  | syslog
  | sysctl
  | recvmmsg
  | archPrctl
  | sendmmsg
  | processVmReadv
deriving DecidableEq

def PostHook.run (fuel : ℕ) (mem : Memory) : PostHook → SyscallCtx → Option (List Clear)
  | .read => postReadHook
  | .readlinkat => postReadlinkatHook
  | .lookupDcookie => postLookupDcookieHook
  | .getdents => postGetdentsHook
  | .getcwd => postGetcwdHook
  | .modifyLdt => postModifyLdtHook
  | .getgroups => postGetgroupsHook
  | .listxattr => postListxattrHook
  | .getxattr => postGetxattrHook
  | .mmap => postMmapHook
  | .readv => postReadvHook mem
  | .epollWait => postEpollWaitHook
  | .poll => postPollHook
  | .mqTimedreceive => postMqTimedreceiveHook
  | .getMempolicy => postGetMempolicyHook
  | .ioGetevents => postIoGeteventsHook
  | .mincore => postMincoreHook
  | .shmctl => postShmctlHook
  | .msgctl => postMsgctlHook
  | .semctl => postSemctlHook mem
  | .rtSigpending => postRtSigpendingHook
  | .quotactl => postQuotactlHook
  | .acceptAccept4GetsocknameGetpeername => postAcceptAccept4GetsocknameGetpeernameHook mem
  | .recvfrom => postRecvfromHook mem
  | .getsockopt => postGetsockoptHook mem
  | .recvmsg => postRecvmsgHook mem
  | .msgrcv => postMsgrcvHook
  | .fcntl => postFcntlHook
  | .syslog => postSyslogHook
  | .sysctl => postSysctlHook mem
  | .recvmmsg => postRecvmmsgHook mem
  | .archPrctl => postArchPrctlHook
  | .sendmmsg => postSendmmsgHook
  | .processVmReadv => postProcessVmReadvHook fuel mem

/-- The hooks whose test of failure does not look at the sign of `ret`. -/
def PostHook.unsigned : PostHook → Bool
  | .mmap | .archPrctl | .sendmmsg | .processVmReadv => true
  | _ => false

theorem whenPositive_of_neg {ctx : SyscallCtx} (h : ctx.ret.toInt < 0)
    (body : Option (List Clear)) : whenPositive ctx body = some [] :=
  if_pos h.le

theorem whenNonneg_of_neg {ctx : SyscallCtx} (h : ctx.ret.toInt < 0)
    (body : Option (List Clear)) : whenNonneg ctx body = some [] :=
  if_pos h

/-- The unsigned test never sees a failure. -/
theorem whenNonnegUnsigned_eq (ctx : SyscallCtx) (body : Option (List Clear)) :
    whenNonnegUnsigned ctx body = body :=
  if_neg BitVec.not_lt_zero

theorem PostHook.run_of_neg {hook : PostHook} (hhook : hook.unsigned = false) {ctx : SyscallCtx}
    (h : ctx.ret.toInt < 0) (fuel : ℕ) (mem : Memory) : hook.run fuel mem ctx = some [] := by
  cases hook with
  | mmap | archPrctl | sendmmsg | processVmReadv => cases hhook
  | read | readlinkat | lookupDcookie | getdents | getcwd | modifyLdt | getgroups | listxattr
  | getxattr | readv | epollWait | poll | mqTimedreceive | ioGetevents | recvfrom | recvmsg
  | msgrcv | syslog => exact whenPositive_of_neg h _
  | getMempolicy | mincore | shmctl | msgctl | semctl | rtSigpending | quotactl
  | acceptAccept4GetsocknameGetpeername | getsockopt | fcntl | sysctl | recvmmsg =>
    exact whenNonneg_of_neg h _

end TheiaTaint.Syscalls
