/-!
The host system around the files the command line is given, and the faults of its calls.

The files a run is given lie in a directory of `/tmp`; going up from their top leads there.
The rest of the host system is known only in part: the usual top directories, the devices of
`/dev` and the standard streams, a few programs of `/usr/bin` (binary, so not text), and the
first lines of a few files of `/etc` and `/proc`, as far as they are the same on every host. Symbolic links are followed as the system follows them:
`/bin` is `/usr/bin`, `/dev/fd` is `/proc/self/fd`, and `/dev/stdin`, `/dev/stdout` and
`/dev/stderr` are its entries `0`, `1` and `2`; `/proc/self/cwd` leads back to the files the
run is given. Standard input is empty.

A new file may be made in any directory of the host, as the superuser may, except in `/proc`,
whose names are all given, and where the file system makes no files of its own (`/sys`,
`/dev/pts`). What is written to the host is not kept; the standard streams show it, and
`/dev/full` refuses it. `/dev/tty` opens on no terminal.

Main definitions: `IoFault`, `Device`, `Node`, `hostNode`, `hostLink`, `hostWorkingDirectory`,
`hostMakes`.
-/

namespace RevisedSimplex.Cli

/-- Why a file operation failed. -/
inductive IoFault where
  | notFound
  | isDirectory
  | notDirectory
  /-- a name longer than 255 bytes, or a path of 4096 bytes or more -/
  | nameTooLong
  /-- a write to a device that has no room -/
  | noSpace
  /-- a file made where the file system makes none -/
  | permissionDenied
  /-- a device that is not there, such as the terminal of a run without one -/
  | noDevice
  /-- a path with a NUL character, which no system call can take -/
  | nulInName
  /-- read bytes that are not UTF-8 text -/
  | invalidText
  /-- any other fault, with its message -/
  | other (message : String)
  deriving DecidableEq, Repr

def IoFault.message : IoFault → String
  | .notFound => "No such file or directory (os error 2)"
  | .isDirectory => "Is a directory (os error 21)"
  | .notDirectory => "Not a directory (os error 20)"
  | .nameTooLong => "File name too long (os error 36)"
  | .noSpace => "No space left on device (os error 28)"
  | .permissionDenied => "Permission denied (os error 13)"
  | .noDevice => "No such device or address (os error 6)"
  | .nulInName => "file name contained an unexpected NUL byte"
  | .invalidText => "stream did not contain valid UTF-8"
  | .other message => message

/-- A device of the host system. -/
inductive Device where
  /-- reads as empty and keeps nothing of what is written: `/dev/null`, standard input -/
  | sink
  /-- refuses what is written, as a full disk does: `/dev/full` -/
  | full
  /-- shows what is written on standard output -/
  | output
  /-- shows what is written on standard error -/
  | errors
  /-- does not open: the terminal of a run without one -/
  | detached
  deriving DecidableEq, Repr

/-- What a path names. -/
inductive Node where
  | file (bytes : ByteArray)
  | directory
  | device (d : Device)
  | missing

def treeParent : List String := ["tmp"]

def hostDirectories : List (List String) :=
  [[], ["boot"], ["dev"], ["dev", "mqueue"], ["dev", "pts"], ["dev", "shm"], ["etc"], ["home"],
    ["media"], ["mnt"], ["opt"], ["proc"], ["proc", "1"], ["proc", "self"],
    ["proc", "self", "fd"], ["root"], ["run"], ["run", "lock"], ["srv"], ["sys"],
    ["sys", "block"], ["sys", "bus"], ["sys", "class"], ["sys", "dev"], ["sys", "devices"],
    ["sys", "fs"], ["sys", "kernel"], ["tmp"], ["usr"], ["usr", "bin"], ["usr", "include"],
    ["usr", "lib"], ["usr", "lib64"], ["usr", "local"], ["usr", "local", "bin"], ["usr", "sbin"],
    ["usr", "share"], ["usr", "src"], ["var"], ["var", "backups"], ["var", "cache"],
    ["var", "lib"], ["var", "local"], ["var", "log"], ["var", "mail"], ["var", "opt"],
    ["var", "spool"], ["var", "tmp"]]

def hostLinks : List (List String × List String) :=
  [(["bin"], ["usr", "bin"]), (["lib"], ["usr", "lib"]), (["lib64"], ["usr", "lib64"]),
    (["sbin"], ["usr", "sbin"]), (["dev", "fd"], ["proc", "self", "fd"]),
    (["dev", "stdin"], ["proc", "self", "fd", "0"]),
    (["dev", "stdout"], ["proc", "self", "fd", "1"]),
    (["dev", "stderr"], ["proc", "self", "fd", "2"]), (["var", "run"], ["run"]),
    (["var", "lock"], ["run", "lock"]), (["etc", "os-release"], ["usr", "lib", "os-release"])]

def hostDevices : List (List String × Device) :=
  [(["dev", "null"], .sink), (["dev", "zero"], .sink), (["dev", "full"], .full),
    (["dev", "random"], .sink), (["dev", "urandom"], .sink), (["dev", "tty"], .detached),
    (["proc", "self", "fd", "0"], .sink), (["proc", "self", "fd", "1"], .output),
    (["proc", "self", "fd", "2"], .errors)]

def programBytes : ByteArray := ⟨#[0x7F, 0x45, 0x4C, 0x46, 0x02, 0x01, 0x01, 0x00, 0xB0]⟩

def hostPrograms : List String :=
  ["[", "apt", "apt-get", "base64", "basename", "bash", "cat", "chgrp", "chmod", "chown", "cmp",
    "comm", "cp", "cut", "dash", "date", "dd", "df", "diff", "dirname", "dpkg", "du", "echo",
    "env", "expr", "false", "find", "grep", "gzip", "head", "hostname", "id", "join", "ln",
    "login", "ls", "md5sum", "mkdir", "mktemp", "mount", "mv", "nohup", "nproc", "od", "paste",
    "perl", "printf", "pwd", "readlink", "realpath", "rm", "rmdir", "sed", "seq", "sh",
    "sha1sum", "sha256sum", "sha512sum", "shuf", "sleep", "sort", "split", "stat", "stty", "su",
    "sync", "tac", "tail", "tar", "tee", "test", "timeout", "touch", "tr", "true", "tty",
    "umount", "uname", "uniq", "wc", "whoami", "xargs", "yes"]

def hostFiles : List (List String × ByteArray) :=
  hostPrograms.map (fun name => (["usr", "bin", name], programBytes)) ++
    [(["etc", "passwd"], "root:x:0:0:root:/root:/bin/bash\n".toUTF8),
      (["etc", "group"], "root:x:0:\n".toUTF8),
      (["etc", "hosts"], "127.0.0.1\tlocalhost\n".toUTF8),
      (["etc", "fstab"], "# UNCONFIGURED FSTAB FOR BASE SYSTEM\n".toUTF8),
      (["etc", "issue"], "Debian GNU/Linux \\n \\l\n".toUTF8),
      (["etc", "shells"], "# /etc/shells: valid login shells\n/bin/sh\n".toUTF8),
      (["usr", "lib", "os-release"], "PRETTY_NAME=\"Debian GNU/Linux\"\n".toUTF8),
      (["proc", "version"], "Linux version\n".toUTF8),
      (["proc", "cpuinfo"], "processor\t: 0\n".toUTF8),
      (["proc", "meminfo"], "MemTotal:\n".toUTF8),
      (["proc", "self", "status"], "Name:\n".toUTF8),
      (["proc", "self", "exe"], programBytes)]

/-- The link to the working directory of the run, which holds the files it is given. -/
def hostWorkingDirectory : List String := ["proc", "self", "cwd"]

/-- A place of the host system with a link at its end followed. -/
def hostLink (names : List String) : List String :=
  match hostLinks.find? (·.1 = names) with
  | some (_, target) => target
  | none => names

/-- What the host system holds at a place, links followed. -/
def hostNode (names : List String) : Node :=
  match hostDevices.find? (·.1 = names) with
  | some (_, d) => .device d
  | none =>
    match hostFiles.find? (·.1 = names) with
    | some (_, b) => .file b
    | none => if hostDirectories.contains names then .directory else .missing

/-- Whether a new file may be made in a directory of the host system. -/
def hostMakes (dir : List String) : Except IoFault Unit :=
  match dir with
  | "proc" :: _ => .error .notFound
  | "sys" :: _ => .error .permissionDenied
  | "dev" :: "pts" :: _ => .error .permissionDenied
  | _ => .ok ()

end RevisedSimplex.Cli
