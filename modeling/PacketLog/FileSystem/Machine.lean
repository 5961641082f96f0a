import PacketLog.FileSystem

/-!
# The files of a machine

What a machine has before anything is done on it: the usual directories and the
links between them, a few files that are always there, and devices.  Devices and
what the kernel shows of itself are volumes of their own.
-/

namespace PacketLog.FileSystem

/-- The directories of a machine, each after the one that holds it. -/
def systemDirectories : List String :=
  ["/boot", "/dev", "/dev/pts", "/dev/shm", "/etc", "/home", "/media", "/mnt", "/opt", "/proc",
    "/root", "/run", "/srv", "/sys", "/tmp", "/usr", "/usr/bin", "/usr/games", "/usr/include",
    "/usr/lib", "/usr/lib64", "/usr/local", "/usr/sbin", "/usr/share", "/usr/src", "/var",
    "/var/cache", "/var/lib", "/var/log", "/var/mail", "/var/spool", "/var/tmp"]

/-- The directories at which volumes begin. -/
def systemVolumes : List String := ["/dev", "/proc", "/sys"]

/-- The directories whose names only the kernel gives. -/
def kernelDirectories : List String := ["/proc"]

/-- Symbolic links: where each leads, and its own path. -/
def systemLinks : List (String × String) :=
  [("usr/bin", "/bin"), ("usr/lib", "/lib"), ("usr/lib64", "/lib64"), ("usr/sbin", "/sbin"),
    ("/run", "/var/run")]

/-- Files that every machine has.  What they hold is left open. -/
def systemFiles : List String :=
  ["/etc/group", "/etc/hostname", "/etc/hosts", "/etc/passwd", "/usr/bin/env", "/usr/bin/sh"]

/-- The devices that keep nothing, and whether each has room for what is written to it. -/
def systemDevices : List (String × Bool) :=
  [("/dev/full", false), ("/dev/null", true), ("/dev/random", true), ("/dev/urandom", true),
    ("/dev/zero", true)]

def makeDevice (files : FileSystem) (path : String) (roomy : Bool) :
    Except SystemFailure FileSystem := do
  let (directory, name) ← files.newName path
  .ok (files.addNamed directory name (.device roomy))

/-- Makes one thing after another; what cannot be made is left out. -/
def makeAll {α : Type} (make : FileSystem → α → Except SystemFailure FileSystem)
    (files : FileSystem) (things : List α) : FileSystem :=
  things.foldl (fun files thing => ((make files thing).toOption).getD files) files

/-- The numbers of the nodes that paths lead to. -/
def findAll (files : FileSystem) (paths : List String) : List Nat :=
  paths.filterMap fun path => (files.find path).toOption

/-- A machine with `home` as its working directory. -/
def machine (home : String) : FileSystem :=
  let files := makeAll makeDirectory {} (systemDirectories ++ [home])
  let files := makeAll (fun files (target, path) => files.makeLink target path) files systemLinks
  let files := makeAll (fun files path => files.write path []) files systemFiles
  let files := makeAll (fun files (path, roomy) => files.makeDevice path roomy) files systemDevices
  { files with
    mountPoints := files.findAll systemVolumes
    sealedDirectories := files.findAll kernelDirectories
    current := ((files.find home).toOption).getD root }

end PacketLog.FileSystem
