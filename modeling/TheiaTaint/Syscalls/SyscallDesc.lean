import Mathlib
import TheiaTaint.Syscalls.PostHooks

namespace TheiaTaint.Syscalls

-- Sizes in bytes, for Linux 3.5 on x86-64.
def sizeofStat : BitVec 64 := 144
def sizeofSigaction : BitVec 64 := 152
def sizeofSigsetT : BitVec 64 := 128
def sizeofFdSet : BitVec 64 := 128
def sizeofTimeval : BitVec 64 := 16
def sizeofItimerval : BitVec 64 := 32
def sizeofOffT : BitVec 64 := 8
def sizeofRusage : BitVec 64 := 144
def sizeofNewUtsname : BitVec 64 := 390
def sizeofTimezone : BitVec 64 := 8
def sizeofRlimit : BitVec 64 := 16
def sizeofSysinfo : BitVec 64 := 112
def sizeofTms : BitVec 64 := 32
def sizeofUidT : BitVec 64 := 4
def sizeofCapUserHeaderT : BitVec 64 := 8
def sizeofCapUserDataT : BitVec 64 := 8
def sizeofSiginfoT : BitVec 64 := 128
def sizeofStackT : BitVec 64 := 24
def sizeofUstat : BitVec 64 := 32
def sizeofStatfs : BitVec 64 := 120
def sizeofSchedParam : BitVec 64 := 4
def sizeofTimex : BitVec 64 := 208
def sizeofTimeT : BitVec 64 := 8
def sizeofCpuSetT : BitVec 64 := 128
def sizeofAioContextT : BitVec 64 := 8
def sizeofUserDesc : BitVec 64 := 16
def sizeofTimerT : BitVec 64 := 8
def sizeofItimerspec : BitVec 64 := 32
def sizeofMqAttr : BitVec 64 := 64
def sizeofPointer : BitVec 64 := 8
def sizeofLoffT : BitVec 64 := 8
def sizeofPerfEventAttr : BitVec 64 := 80
def sizeofFileHandle : BitVec 64 := 8
def sizeofGetcpuCache : BitVec 64 := 128

/-- `syscall_desc_t`. No entry of the table has a pre-syscall callback. -/
structure SyscallDesc where
  nargs : ℕ
  saveArgs : Bool
  retvalArgs : Bool
  mapArgs : Fin 6 → BitVec 64
  post : Option PostHook

def plain (nargs : ℕ) : SyscallDesc := ⟨nargs, false, false, 0, none⟩

def hooked (nargs : ℕ) (hook : PostHook) : SyscallDesc := ⟨nargs, true, false, 0, some hook⟩

def filling (nargs : ℕ) (mapArgs : Fin 6 → BitVec 64) : SyscallDesc :=
  ⟨nargs, false, true, mapArgs, none⟩

/-- The table `syscall_desc` in the order of the system call numbers, with their names. -/
def syscallTable : List (String × SyscallDesc) :=
  [("read", hooked 3 .read), ("write", plain 3), ("open", plain 3), ("close", plain 1),
    ("stat", filling 2 ![0, sizeofStat, 0, 0, 0, 0]),
    ("fstat", filling 2 ![0, sizeofStat, 0, 0, 0, 0]),
    ("lstat", filling 2 ![0, sizeofStat, 0, 0, 0, 0]), ("poll", hooked 3 .poll), ("lseek", plain 3),
    ("mmap", hooked 6 .mmap), ("mprotect", plain 3), ("munmap", plain 2), ("brk", plain 1),
    ("rt_sigaction", filling 4 ![0, 0, sizeofSigaction, 0, 0, 0]),
    ("rt_sigprocmask", filling 4 ![0, 0, sizeofSigsetT, 0, 0, 0]), ("rt_sigreturn", plain 1),
    ("ioctl", ⟨3, true, false, 0, none⟩), ("pread64", hooked 4 .read), ("pwrite64", plain 4),
    ("readv", hooked 3 .readv), ("writev", plain 3), ("access", plain 2),
    ("pipe", filling 1 ![2 * sizeofInt, 0, 0, 0, 0, 0]),
    ("select", filling 5 ![0, sizeofFdSet, sizeofFdSet, sizeofFdSet, sizeofTimeval, 0]),
    ("sched_yield", plain 0), ("mremap", plain 5), ("msync", plain 3),
    ("mincore", hooked 3 .mincore), ("madvise", plain 3), ("shmget", plain 3), ("shmat", plain 3),
    ("shmctl", hooked 3 .shmctl), ("dup", plain 1), ("dup2", plain 2), ("pause", plain 0),
    ("nanosleep", filling 2 ![0, sizeofTimespec, 0, 0, 0, 0]),
    ("getitimer", filling 2 ![0, sizeofItimerval, 0, 0, 0, 0]), ("alarm", plain 1),
    ("setitimer", filling 3 ![0, 0, sizeofItimerval, 0, 0, 0]), ("getpid", plain 0),
    ("sendfile", filling 4 ![0, 0, sizeofOffT, 0, 0, 0]), ("socket", plain 3), ("connect", plain 3),
    ("accept", hooked 3 .acceptAccept4GetsocknameGetpeername), ("sendto", plain 6),
    ("recvfrom", hooked 6 .recvfrom), ("sendmsg", plain 3), ("recvmsg", hooked 3 .recvmsg),
    ("shutdown", plain 3), ("bind", plain 3), ("listen", plain 2),
    ("getsockname", hooked 3 .acceptAccept4GetsocknameGetpeername),
    ("getpeername", hooked 3 .acceptAccept4GetsocknameGetpeername),
    ("socketpair", filling 4 ![0, 0, 0, 2 * sizeofInt, 0, 0]), ("setsockopt", plain 5),
    ("getsockopt", hooked 5 .getsockopt), ("clone", filling 5 ![0, 0, sizeofInt, 0, 0, 0]),
    ("fork", plain 0), ("vfork", plain 0), ("execve", plain 1), ("exit", plain 1),
    ("wait4", filling 4 ![0, sizeofInt, 0, sizeofRusage, 0, 0]), ("kill", plain 2),
    ("uname", filling 1 ![sizeofNewUtsname, 0, 0, 0, 0, 0]), ("semget", plain 3),
    ("semop", plain 3), ("semctl", hooked 4 .semctl), ("shmdt", plain 1), ("msgget", plain 2),
    ("msgsnd", plain 4), ("msgrcv", hooked 5 .msgrcv), ("msgctl", hooked 3 .msgctl),
    ("fcntl", hooked 3 .fcntl), ("flock", plain 2), ("fsync", plain 1), ("fdatasync", plain 1),
    ("truncate", plain 2), ("ftruncate", plain 2), ("getdents", hooked 3 .getdents),
    ("getcwd", hooked 2 .getcwd), ("chdir", plain 1), ("fchdir", plain 1), ("rename", plain 2),
    ("mkdir", plain 2), ("rmdir", plain 1), ("creat", plain 2), ("link", plain 2),
    ("unlink", plain 1), ("symlink", plain 2), ("readlink", hooked 3 .read), ("chmod", plain 2),
    ("fchmod", plain 2), ("chown", plain 3), ("fchown", plain 3), ("lchown", plain 3),
    ("umask", plain 1), ("gettimeofday", filling 2 ![sizeofTimeval, sizeofTimezone, 0, 0, 0, 0]),
    ("getrlimit", filling 2 ![0, sizeofRlimit, 0, 0, 0, 0]),
    ("getrusage", filling 2 ![0, sizeofRusage, 0, 0, 0, 0]),
    ("sysinfo", filling 1 ![sizeofSysinfo, 0, 0, 0, 0, 0]),
    ("times", filling 1 ![sizeofTms, 0, 0, 0, 0, 0]), ("ptrace", plain 4), ("getuid", plain 0),
    ("syslog", hooked 3 .syslog), ("getgid", plain 0), ("setuid", plain 1), ("setgid", plain 1),
    ("geteuid", plain 0), ("getegid", plain 0), ("setpgid", plain 2), ("getppid", plain 0),
    ("getpgrp", plain 0), ("setsid", plain 0), ("setreuid", plain 2), ("setregid", plain 2),
    ("getgroups", hooked 2 .getgroups), ("setgroups", plain 2), ("setresuid", plain 3),
    ("getresuid", filling 3 ![sizeofUidT, sizeofUidT, sizeofUidT, 0, 0, 0]), ("setresgid", plain 3),
    ("getresgid", filling 3 ![sizeofGidT, sizeofGidT, sizeofGidT, 0, 0, 0]), ("getpgid", plain 1),
    ("setfsuid", plain 1), ("setfsgid", plain 1), ("getsid", plain 1),
    ("capget", filling 2 ![sizeofCapUserHeaderT, sizeofCapUserDataT, 0, 0, 0, 0]),
    ("capset", plain 2), ("rt_sigpending", hooked 2 .rtSigpending),
    ("rt_sigtimedwait", filling 4 ![0, sizeofSiginfoT, 0, 0, 0, 0]),
    ("rt_sigqueueinfo", filling 3 ![0, 0, sizeofSiginfoT, 0, 0, 0]), ("rt_sigsuspend", plain 1),
    ("sigaltstack", filling 2 ![0, sizeofStackT, 0, 0, 0, 0]), ("utime", plain 2),
    ("mknod", plain 3), ("uselib", plain 1), ("personality", plain 1),
    ("ustat", filling 2 ![0, sizeofUstat, 0, 0, 0, 0]),
    ("statfs", filling 2 ![0, sizeofStatfs, 0, 0, 0, 0]),
    ("fstatfs", filling 2 ![0, sizeofStatfs, 0, 0, 0, 0]), ("sysfs", plain 3),
    ("getpriority", plain 2), ("setpriority", plain 3), ("sched_setparam", plain 2),
    ("sched_getparam", filling 2 ![0, sizeofSchedParam, 0, 0, 0, 0]),
    ("sched_setscheduler", plain 3), ("sched_getscheduler", plain 1),
    ("sched_get_priority_max", plain 1), ("sched_get_priority_min", plain 1),
    ("sched_rr_get_interval", filling 2 ![0, sizeofTimespec, 0, 0, 0, 0]), ("mlock", plain 2),
    ("munlock", plain 2), ("mlockall", plain 1), ("munlockall", plain 0), ("vhangup", plain 0),
    ("modify_ldt", hooked 3 .modifyLdt), ("pivot_root", plain 2), ("_sysctl", hooked 1 .sysctl),
    ("prctl", plain 5), ("arch_prctl", hooked 2 .archPrctl),
    ("adjtimex", filling 1 ![sizeofTimex, 0, 0, 0, 0, 0]), ("setrlimit", plain 2),
    ("chroot", plain 1), ("sync", plain 0), ("acct", plain 1), ("settimeofday", plain 2),
    ("mount", plain 5), ("umount2", plain 2), ("swapon", plain 2), ("swapoff", plain 1),
    ("reboot", plain 4), ("sethostname", plain 2), ("setdomainname", plain 2), ("iopl", plain 1),
    ("ioperm", plain 3), ("create_module", plain 0), ("init_module", plain 3),
    ("delete_module", plain 2), ("get_kernel_syms", plain 0), ("query_module", plain 0),
    ("quotactl", hooked 4 .quotactl), ("nfsservctl", ⟨3, true, false, 0, none⟩),
    ("getpmsg", plain 5), ("putpmsg", plain 5), ("afs_syscall", plain 0), ("tuxcall", plain 0),
    ("security", plain 0), ("gettid", plain 0), ("readahead", plain 3), ("setxattr", plain 5),
    ("lsetxattr", plain 5), ("fsetxattr", plain 5), ("getxattr", hooked 4 .getxattr),
    ("lgetxattr", hooked 4 .getxattr), ("fgetxattr", hooked 4 .getxattr),
    ("listxattr", hooked 3 .listxattr), ("llistxattr", hooked 3 .listxattr),
    ("flistxattr", hooked 3 .listxattr), ("removexattr", plain 2), ("lremovexattr", plain 2),
    ("fremovexattr", plain 2), ("tkill", plain 2),
    ("time", filling 1 ![sizeofTimeT, 0, 0, 0, 0, 0]), ("futex", plain 6),
    ("sched_setaffinity", plain 3),
    ("sched_getaffinity", filling 3 ![0, 0, sizeofCpuSetT, 0, 0, 0]), ("set_thread_area", plain 1),
    ("io_setup", filling 2 ![0, sizeofAioContextT, 0, 0, 0, 0]), ("io_destroy", plain 1),
    ("io_getevents", hooked 5 .ioGetevents), ("io_submit", plain 3),
    ("io_cancel", filling 3 ![0, 0, sizeofIoEvent, 0, 0, 0]),
    ("get_thread_area", filling 1 ![sizeofUserDesc, 0, 0, 0, 0, 0]),
    ("lookup_dcookie", hooked 3 .lookupDcookie), ("epoll_create", plain 1),
    ("epoll_ctl_old", plain 4), ("epoll_wait_old", hooked 4 .epollWait),
    ("remap_file_pages", plain 5), ("getdents64", hooked 3 .getdents), ("set_tid_address", plain 1),
    ("restart_syscall", plain 0), ("semtimedop", plain 3), ("fadvise64", plain 4),
    ("timer_create", filling 3 ![0, 0, sizeofTimerT, 0, 0, 0]),
    ("timer_settime", filling 4 ![0, 0, 0, sizeofItimerspec, 0, 0]),
    ("timer_gettime", filling 2 ![0, sizeofItimerspec, 0, 0, 0, 0]), ("timer_getoverrun", plain 1),
    ("timer_delete", plain 1), ("clock_settime", plain 2),
    ("clock_gettime", filling 2 ![0, sizeofTimespec, 0, 0, 0, 0]),
    ("clock_getres", filling 2 ![0, sizeofTimespec, 0, 0, 0, 0]),
    ("clock_nanosleep", filling 4 ![0, 0, 0, sizeofTimespec, 0, 0]), ("exit_group", plain 1),
    ("epoll_wait", hooked 4 .epollWait), ("epoll_ctl", plain 4), ("tgkill", plain 3),
    ("utimes", plain 2), ("vserver", plain 0), ("mbind", plain 6), ("set_mempolicy", plain 3),
    ("get_mempolicy", hooked 5 .getMempolicy), ("mq_open", plain 4), ("mq_unlink", plain 1),
    ("mq_timedsend", plain 5), ("mq_timedreceive", hooked 5 .mqTimedreceive),
    ("mq_notify", plain 2), ("mq_getsetattr", filling 3 ![0, 0, sizeofMqAttr, 0, 0, 0]),
    ("kexec_load", plain 4), ("waitid", filling 4 ![0, 0, sizeofSiginfoT, 0, sizeofRusage, 0]),
    ("add_key", plain 5), ("request_key", plain 4), ("keyctl", plain 5), ("ioprio_set", plain 3),
    ("ioprio_get", plain 2), ("inotify_init", plain 0), ("inotify_add_watch", plain 3),
    ("inotify_rm_watch", plain 2), ("migrate_pages", plain 4), ("openat", plain 4),
    ("mkdirat", plain 3), ("mknodat", plain 4), ("fchownat", plain 5), ("futimesat", plain 3),
    ("newfstatat", ⟨4, true, false, ![0, 0, sizeofStat, 0, 0, 0], none⟩), ("unlinkat", plain 3),
    ("renameat", plain 4), ("linkat", plain 5), ("symlinkat", plain 3),
    ("readlinkat", hooked 4 .readlinkat), ("fchmodat", plain 3), ("faccessat", plain 3),
    ("pselect6", filling 6 ![0, sizeofFdSet, sizeofFdSet, sizeofFdSet, 0, 0]),
    ("ppoll", hooked 5 .poll), ("unshare", plain 1), ("set_robust_list", plain 2),
    ("get_robust_list", filling 3 ![0, sizeofPointer, sizeofSizeT, 0, 0, 0]),
    ("splice", filling 6 ![0, sizeofLoffT, 0, sizeofLoffT, 0, 0]), ("tee", plain 4),
    ("sync_file_range", plain 4), ("vmsplice", plain 4),
    ("move_pages", filling 6 ![0, 0, 0, 0, sizeofInt, 0]), ("utimensat", plain 4),
    ("epoll_pwait", hooked 6 .epollWait), ("signalfd", plain 3), ("timerfd_create", plain 2),
    ("eventfd", plain 1), ("fallocate", plain 4),
    ("timerfd_settime", filling 4 ![0, 0, 0, sizeofItimerspec, 0, 0]),
    ("timerfd_gettime", filling 2 ![0, sizeofItimerspec, 0, 0, 0, 0]),
    ("accept4", hooked 4 .acceptAccept4GetsocknameGetpeername), ("signalfd4", plain 4),
    ("eventfd2", plain 2), ("epoll_create1", plain 1), ("dup3", plain 3),
    ("pipe2", filling 2 ![2 * sizeofInt, 0, 0, 0, 0, 0]), ("inotify_init1", plain 1),
    ("preadv", hooked 5 .readv), ("pwritev", plain 5),
    ("rt_tgsigqueueinfo", filling 4 ![0, 0, 0, sizeofSiginfoT, 0, 0]),
    ("perf_event_open", filling 5 ![sizeofPerfEventAttr, 0, 0, 0, 0, 0]),
    ("recvmmsg", hooked 5 .recvmmsg), ("fanotify_init", plain 2), ("fanotify_mark", plain 5),
    ("prlimit64", filling 4 ![0, 0, 0, sizeofRlimit, 0, 0]),
    ("name_to_handle_at", filling 5 ![0, 0, sizeofFileHandle, sizeofInt, 0, 0]),
    ("open_by_handle_at", filling 3 ![0, sizeofFileHandle, 0, 0, 0, 0]),
    ("clock_adjtime", filling 2 ![0, sizeofTimex, 0, 0, 0, 0]), ("syncfs", plain 1),
    ("sendmmsg", hooked 4 .sendmmsg), ("setns", plain 2),
    ("getcpu", filling 3 ![sizeofInt, sizeofInt, sizeofGetcpuCache, 0, 0, 0]),
    ("process_vm_readv", hooked 6 .processVmReadv), ("process_vm_writev", plain 6)]

theorem length_syscallTable : syscallTable.length = syscallMax := by
  decide +kernel

def syscallDesc (nr : Fin syscallMax) : SyscallDesc :=
  (syscallTable.get (nr.cast length_syscallTable.symm)).2

end TheiaTaint.Syscalls
