import TinyBpfLog.Bpftools.Monitors
import TinyBpfLog.Bpftools.Mount
import TinyBpfLog.Bpftools.Process
import TinyBpfLog.Bpftools.TcpState
import TinyBpfLog.Foundation.Printf

/-!
# What the monitors log

The callbacks that take the events from the kernel and log a line for each, with
the filters of the process and the tcpstate monitor.  The mount monitor's
callback does not look at its configuration.
-/

namespace TinyBpfLog.Bpftools

open Foundation Printf

/--
The C library at the time of a callback.  `strftime` has the wall clock in it,
`address i` is where the string of the `i`-th argument lies, and `unset` is what
a buffer holds that has not been written.
-/
structure Libc where
  strftime : Bytes → Bytes
  strerrornameNp : Int32 → Option Bytes
  inetNtop : UInt16 → BitVec 128 → Nat → Option Bytes
  thousandth : UInt64 → Nat → Bytes
  address : Nat → UInt64
  unset : Bytes
  deriving Inhabited

/-- A `char *` argument. -/
def Libc.str (libc : Libc) (i : Nat) (text : Bytes) : Argument :=
  .pointer (libc.address i) (cString text)

def int (i : Int32) : Argument := .word i.toUInt32.toUInt64

/-! ## The process monitor -/

/-- The line that is logged, if one is. -/
def processHandleEvent (libc : Libc) (processConfig : ProcessConfig)
    (pe : Process.ProcessEvent) : Option Bytes :=
  if processConfig.isPidFilter pe.pid ||
      processConfig.isCommFilter pe.comm.text then none
  else
    let ts := libc.strftime (ascii "%H:%M:%S")
    if pe.exitEvent then
      some (sprintf "[%s, %s] %-8s %-5s %-16s %-7d %-7d [%u] (%ums)" [
        libc.str 0 processConfig.monitorName, libc.str 1 processConfig.monitorId,
        libc.str 2 ts, libc.str 3 (ascii "EXIT"), libc.str 4 pe.comm.text,
        int pe.pid, int pe.ppid, .word pe.exitCode.toUInt64,
        .word (pe.durationNs / 1000000)])
    else
      some (sprintf "[%s, %s] %-8s %-5s %-16s %-7d %-7d %s" [
        libc.str 0 processConfig.monitorName, libc.str 1 processConfig.monitorId,
        libc.str 2 ts, libc.str 3 (ascii "EXEC"), libc.str 4 pe.comm.text,
        int pe.pid, int pe.ppid, libc.str 5 pe.filename.text])

/-! ## The tcpstate monitor -/

def tcpstatesMap : Int32 → Option Bytes
  | 1 => some (ascii "ESTABLISHED")
  | 2 => some (ascii "SYN_SENT")
  | 3 => some (ascii "SYN_RECV")
  | 4 => some (ascii "FIN_WAIT1")
  | 5 => some (ascii "FIN_WAIT2")
  | 6 => some (ascii "TIME_WAIT")
  | 7 => some (ascii "CLOSE")
  | 8 => some (ascii "CLOSE_WAIT")
  | 9 => some (ascii "LAST_ACK")
  | 10 => some (ascii "LISTEN")
  | 11 => some (ascii "CLOSING")
  | 12 => some (ascii "NEW_SYN_RECV")
  | 13 => some (ascii "UNKNOWN")
  | _ => none

/-- `inet_ntop` leaves a buffer that is too small as it is. -/
def Libc.ntop (libc : Libc) (family : UInt16) (addr : BitVec 128) : Bytes :=
  (libc.inetNtop family addr 26).getD libc.unset

def tcpstateHandleEvent (libc : Libc) (tcpConfig : TcpStateConfig)
    (event : TcpState.TcpstateEvent) : Option Bytes :=
  if tcpConfig.isPidFilter event.pid || tcpConfig.isSaddrFilter event.saddr ||
      tcpConfig.isSportFilter event.sport || tcpConfig.isDportFilter event.dport
  then none
  else
    let saddr := libc.ntop event.family event.saddr
    let daddr := libc.ntop event.family event.daddr
    -- a state that is not in the map is put there with the empty string
    let oldstate := (tcpstatesMap event.oldstate).getD []
    let newstate := (tcpstatesMap event.newstate).getD []
    if tcpConfig.wideOutput then
      let family : Int32 := if event.family = TcpState.afInet then 4 else 6
      some (sprintf ("[%s, %u] %-16llx %-7d %-16s %-2d %-26s %-5d %-26s %-5d " ++
          "%-11s -> %-11s %.3f") [
        libc.str 0 tcpConfig.monitorName, libc.str 1 tcpConfig.monitorId,
        .word event.skaddr, .word event.pid.toUInt64, libc.str 2 event.task.text,
        int family, libc.str 3 saddr, .word event.sport.toUInt64,
        libc.str 4 daddr, .word event.dport.toUInt64, libc.str 5 oldstate,
        libc.str 6 newstate, .real (libc.thousandth event.deltaUs)])
    else
      some (sprintf ("[%s, %u] %-16llx %-7d %-10.10s %-15s %-5d %-15s %-5d " ++
          "%-11s -> %-11s %.3f") [
        libc.str 0 tcpConfig.monitorName, libc.str 1 tcpConfig.monitorId,
        .word event.skaddr, .word event.pid.toUInt64, libc.str 2 event.task.text,
        libc.str 3 saddr, .word event.sport.toUInt64, libc.str 4 daddr,
        .word event.dport.toUInt64, libc.str 5 oldstate, libc.str 6 newstate,
        .real (libc.thousandth event.deltaUs)])

/-! ## The mount monitor -/

def flagNames : List Bytes := [
  ascii "MS_RDONLY", ascii "MS_NOSUID", ascii "MS_NODEV", ascii "MS_NOEXEC",
  ascii "MS_SYNCHRONOUS", ascii "MS_REMOUNT", ascii "MS_MANDLOCK",
  ascii "MS_DIRSYNC", ascii "MS_NOSYMFOLLOW", ascii "MS_NOATIME",
  ascii "MS_NODIRATIME", ascii "MS_BIND", ascii "MS_MOVE", ascii "MS_REC",
  ascii "MS_VERBOSE", ascii "MS_SILENT", ascii "MS_POSIXACL",
  ascii "MS_UNBINDABLE", ascii "MS_PRIVATE", ascii "MS_SLAVE",
  ascii "MS_SHARED", ascii "MS_RELATIME", ascii "MS_KERNMOUNT",
  ascii "MS_I_VERSION", ascii "MS_STRICTATIME", ascii "MS_LAZYTIME",
  ascii "MS_SUBMOUNT", ascii "MS_NOREMOTELOCK", ascii "MS_NOSEC",
  ascii "MS_BORN", ascii "MS_ACTIVE", ascii "MS_NOUSER"]

/-- `(1 << i)` is an `int`, which is extended by its sign to meet `flags`. -/
def flagMask (i : Nat) : UInt64 := ((1 : Int32) <<< Int32.ofNat i).toInt64.toUInt64

/-- The loop of `strflags` from the name at `i` on. -/
def strflagsFrom (flags : UInt64) : Nat → List Bytes → Bytes → Bytes
  | _, [], str => str
  | i, name :: names, str =>
      if flagMask i &&& flags = 0 then strflagsFrom flags (i + 1) names str
      else
        strflagsFrom flags (i + 1) names
          ((if str = [] then str else str ++ ascii " | ") ++ name)

def strflags (flags : UInt64) : Bytes :=
  if flags = 0 then ascii "0x0" else strflagsFrom flags 0 flagNames []

def strerrno (libc : Libc) (errnum : Int32) : Bytes :=
  if errnum = 0 then ascii "0"
  else
    match libc.strerrornameNp (-errnum) with
    | none => snprintf 32 "%d" [int errnum]
    | some errstr => snprintf 32 "-%s" [libc.str 0 errstr]

def genCall (libc : Libc) (me : Mount.MountEvent) : Bytes :=
  match me.op with
  | .umount =>
      snprintf 10240 "umount(\"%s\", %s) = %s" [
        libc.str 1 me.dest.text, libc.str 2 (strflags me.flags),
        libc.str 3 (strerrno libc me.ret)]
  | .mount =>
      snprintf 10240 "mount(\"%s\", \"%s\", \"%s\", %s, \"%s\") = %s" [
        libc.str 1 me.src.text, libc.str 2 me.dest.text, libc.str 3 me.fs.text,
        libc.str 4 (strflags me.flags), libc.str 5 me.data.text,
        libc.str 6 (strerrno libc me.ret)]

def opName : Mount.MountOp → Bytes
  | .mount => ascii "MOUNT"
  | .umount => ascii "UMOUNT"

def mountHandleEvent (libc : Libc) (me : Mount.MountEvent) : Bytes :=
  let ts := libc.strftime (ascii "%H:%M:%S ")
  sprintf "%s COMM[%s] PID[%d] TID[%d] MNT_NS[%u] OP[%s] %s\n" [
    libc.str 0 ts, libc.str 1 me.comm.text, .word me.pid.toUInt64,
    .word me.tid.toUInt64, .word me.mntNs.toUInt64, libc.str 2 (opName me.op),
    libc.str 3 (genCall libc me)]

end TinyBpfLog.Bpftools
