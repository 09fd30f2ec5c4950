import SharedKernel.Js.Json

/-! The CloudEvents 1.0 envelope: the wire contract of every integration event. -/

namespace SharedKernel.Messaging

open Js

/-- A CloudEvents 1.0 envelope with the extension attributes the platform uses. -/
structure CloudEvent where
  specversion : String
  id : String
  source : String
  type : String
  time : String
  subject : Option String
  datacontenttype : Option String
  data : Json
  orgid : String
  partitionkey : String
  traceparent : Option String

end SharedKernel.Messaging
