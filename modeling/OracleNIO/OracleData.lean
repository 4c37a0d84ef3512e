import OracleNIO.SwiftRuntime

namespace OracleNIO

open SwiftRuntime

/-- A value of the database, as the package has it. -/
inductive OracleData where
  | integer (value : Int64)
  | float (value : Binary32)
  | double (value : Binary64)
  | text (value : String)
  | timestamp (value : Date)
  | blob (value : List UInt8)
  | raw (value : List UInt8)
  | null
deriving DecidableEq, Repr

/-- `OracleError.Reason` -/
inductive Reason where
  | cantOpen
  | noHandle
  | noContext
  | error
  | oracleError (code : Int32)
deriving DecidableEq, Repr

structure OracleError where
  reason : Reason
  message : String
deriving DecidableEq, Repr

end OracleNIO
