/-! Error numbers that devices report, in the numbering of their firmware's C library. -/

namespace BoardRpc

/-- The known error numbers with their names. -/
def errnoTable : List (UInt32 × String) := [
  (1, "EPERM"), (2, "ENOENT"), (3, "ESRCH"), (4, "EINTR"), (5, "EIO"), (6, "ENXIO"), (7, "E2BIG"),
  (9, "EBADF"), (11, "EAGAIN"), (12, "ENOMEM"), (13, "EACCES"), (14, "EFAULT"), (16, "EBUSY"),
  (17, "EEXIST"), (19, "ENODEV"), (22, "EINVAL"), (28, "ENOSPC"), (34, "ERANGE"), (61, "ENODATA"),
  (71, "EPROTO"), (77, "EBADMSG"), (88, "ENOSYS"), (116, "ETIMEDOUT"), (122, "EMSGSIZE"),
  (134, "ENOTSUP"), (139, "EOVERFLOW")]

/-- The name of an error number. -/
def errnoName? (code : UInt32) : Option String :=
  (errnoTable.find? fun (known, _) => known == code).map Prod.snd

/-- The error number of a name, the case of ASCII letters aside. -/
def errnoCode? (name : String) : Option UInt32 :=
  let lower (text : String) := text.toList.map Char.toLower
  (errnoTable.find? fun (_, known) => lower known == lower name).map Prod.fst

end BoardRpc
