import EdgeDNS.Basic
import EdgeDNS.Library.Arena
import EdgeDNS.Library.DirectIndex
import EdgeDNS.Library.DnsMessage
import EdgeDNS.Library.Filling
import EdgeDNS.Library.Greedy
import EdgeDNS.Library.KeyedLog
import EdgeDNS.Library.KeyedTable
import EdgeDNS.Library.Linked
import EdgeDNS.Library.Outstanding
import EdgeDNS.Library.PowerPieces
import EdgeDNS.Library.Probing
import EdgeDNS.Library.RecordData
import EdgeDNS.Library.Run
import EdgeDNS.Library.Scans
import EdgeDNS.Library.Shelves
import EdgeDNS.Library.Window
import EdgeDNS.Library.Wire
import EdgeDNS.Utils.AddressText
import EdgeDNS.Utils.NameCodec
import EdgeDNS.Utils.Parameters
import EdgeDNS.Utils.String
import EdgeDNS.Utils.TxtCodec
import EdgeDNS.Utils.Vector
import EdgeDNS.Cache.Capacity
import EdgeDNS.Cache.IpGroupEffects
import EdgeDNS.Cache.IpGroupEntered
import EdgeDNS.Cache.IpGroupIndex
import EdgeDNS.Cache.IpGroupInvariant
import EdgeDNS.Cache.IpGroupOrigin
import EdgeDNS.Cache.IpGroupReopen
import EdgeDNS.Cache.IpGroupText
import EdgeDNS.Cache.MmapIpGroup
import EdgeDNS.Cache.MmapRecords
import EdgeDNS.Cache.ProbeCycle
import EdgeDNS.Cache.RecordsChains
import EdgeDNS.Cache.RecordsEffects
import EdgeDNS.Cache.RecordsInvariant
import EdgeDNS.Cache.RecordsOrigin
import EdgeDNS.Cache.RecordsRefinement
import EdgeDNS.Cache.RecordsReopen
import EdgeDNS.Geo.Group
import EdgeDNS.Geo.GroupIndex
import EdgeDNS.Geo.GroupReload
import EdgeDNS.Cassandra.Record
import EdgeDNS.Core.Activities
import EdgeDNS.Core.ArmedReads
import EdgeDNS.Core.Attended
import EdgeDNS.Core.BufferPool
import EdgeDNS.Core.CompleteAnswers
import EdgeDNS.Core.Convergence
import EdgeDNS.Core.DeletedRecords
import EdgeDNS.Core.Emission
import EdgeDNS.Core.EntryUpdates
import EdgeDNS.Core.Handle
import EdgeDNS.Core.HandleEffects
import EdgeDNS.Core.HandleResponse
import EdgeDNS.Core.LetterCase
import EdgeDNS.Core.Lifetime
import EdgeDNS.Core.Messages
import EdgeDNS.Core.NameReads
import EdgeDNS.Core.Operational
import EdgeDNS.Core.PendingSends
import EdgeDNS.Core.ProgramFaults
import EdgeDNS.Core.ProgramServes
import EdgeDNS.Core.Provenance
import EdgeDNS.Core.RData
import EdgeDNS.Core.RDataForm
import EdgeDNS.Core.RateLimit
import EdgeDNS.Core.Segmentation
import EdgeDNS.Core.ServedTexts
import EdgeDNS.Core.SyncEntries
import EdgeDNS.Core.SyncFaults
import EdgeDNS.Core.SyncMoves
import EdgeDNS.Core.SyncServed
import EdgeDNS.Core.SyncWorker
import EdgeDNS.Core.System
import EdgeDNS.Core.Threads
import EdgeDNS.Core.Transports
import EdgeDNS.Core.Truncation
import EdgeDNS.Core.UdpLimit
import EdgeDNS.Core.Worker
import EdgeDNS.Core.Zone
