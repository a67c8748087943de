import WifiAdvisor.Forms.Metrics
import WifiAdvisor.Forms.Notice
/-!
Output records: what a host shows of the calls that advisors make.
-/

namespace WifiAdvisor

open Document

inductive Record where
  | notify (slot : Int32) (notice : Notice)
  | cancel (slot : Int32) (tag : String)
  | networkAdded (id : NetworkId) (config : NetworkConfig) (owner : UInt32)
  | connect (id : NetworkId)
  | openPicker (tag : String)
  | dump (advisors : List Dump)
  deriving DecidableEq, Inhabited

namespace Record

def toValue : Record → Value
  | .notify slot notice => .object [
      ("type", .string "notify"),
      ("notification_id", Forms.int32 slot),
      ("notification", notice.toValue)]
  | .cancel slot tag => .object [
      ("type", .string "cancel"),
      ("notification_id", Forms.int32 slot),
      ("tag", .string tag)]
  | .networkAdded id config owner => .object [
      ("type", .string "network_added"),
      ("network_id", Forms.int32 id),
      ("config", config.toValue),
      ("owner_uid", Forms.uint32 owner)]
  | .connect id => .object [
      ("type", .string "connect"),
      ("network_id", Forms.int32 id)]
  | .openPicker tag => .object [
      ("type", .string "open_picker"),
      ("tag", .string tag)]
  | .dump advisors => .object [
      ("type", .string "dump"),
      ("notifiers", .list Dump.toValue advisors)]

end Record

end WifiAdvisor
