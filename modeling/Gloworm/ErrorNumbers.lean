import Mathlib.Data.Int.Notation

/-! The error numbers of `errno.h` that the modelled calls answer. -/
namespace Gloworm

def EPERM : ℤ := -1
def ENOENT : ℤ := -2
def EINTR : ℤ := -4
def EIO : ℤ := -5
def ENXIO : ℤ := -6
def ENOEXEC : ℤ := -8
def EBADF : ℤ := -9
def ENOMEM : ℤ := -12
def EACCES : ℤ := -13
def EFAULT : ℤ := -14
def EBUSY : ℤ := -16
def EEXIST : ℤ := -17
def EXDEV : ℤ := -18
def ENODEV : ℤ := -19
def ENOTDIR : ℤ := -20
def EISDIR : ℤ := -21
def EINVAL : ℤ := -22
def ENFILE : ℤ := -23
def EMFILE : ℤ := -24
def ENOSPC : ℤ := -28
def EROFS : ℤ := -30
def ENAMETOOLONG : ℤ := -36
def ENOTEMPTY : ℤ := -39
end Gloworm
