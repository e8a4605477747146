/-
Error numbers of asm-generic/errno-base.h, as the `long` results of system
calls that the repository's kernel code negates.
-/

set_option autoImplicit false

namespace CS421

def EPERM : Int64 := 1
def ENOENT : Int64 := 2
def ESRCH : Int64 := 3
def ENOMEM : Int64 := 12
def EACCES : Int64 := 13
def EFAULT : Int64 := 14
def EEXIST : Int64 := 17
def EINVAL : Int64 := 22

end CS421
