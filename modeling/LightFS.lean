import LightFS.Library.Machine
import LightFS.Library.CString
import LightFS.Library.ByteCursor
import LightFS.Library.OrderedMap
import LightFS.Library.SlotArray
import LightFS.Meta.Shard
import LightFS.Meta.ShardMap
import LightFS.Meta.Checkpoint
import LightFS.Meta.Pagination
import LightFS.Gateway.ErasureCoding
import LightFS.Gateway.ErasureDurability
import LightFS.Gateway.FragmentSizes
import LightFS.Library.LinearProbe
import LightFS.Gateway.ManifestCache
import LightFS.Gateway.CacheChains
import LightFS.Library.Recency
import LightFS.Gateway.CacheEviction
import LightFS.Gateway.CacheHash
import LightFS.Gateway.CacheMemory
import LightFS.Gateway.MetaBatch
import LightFS.Access.HttpParser
import LightFS.Access.HttpConnection
import LightFS.Access.Segmentation
import LightFS.Storage.Client
import LightFS.Storage.Server
import LightFS.Storage.Codec
import LightFS.Library.Places
import LightFS.Storage.RemoteCalls
import LightFS.Gateway.Replication
import LightFS.Library.Interleaving
import LightFS.Storage.Statfs
import LightFS.Access.ConnectionEvents
import LightFS.Access.RequestIsolation
import LightFS.Access.SpanReassembly
import LightFS.Access.HeaderTable
import LightFS.Access.HttpServer
import LightFS.Access.BodyBuffer
import LightFS.Access.FailedWrites
import LightFS.Library.StringSearch
import LightFS.Access.Routes
import LightFS.Access.HeaderInterpreters
import LightFS.Access.HttpResponse
import LightFS.Library.Bracketed
import LightFS.Access.XmlDocuments
import LightFS.Library.DeferredWrite
import LightFS.Access.ResponseIsolation
import LightFS.Gateway.ErasureDecoding
import LightFS.Meta.Server
import LightFS.Meta.ShardTree
import LightFS.Storage.Responses
import LightFS.Library.CrlfText
import LightFS.Access.ResponseFraming
import LightFS.Access.KeepAliveFraming
import LightFS.Library.Framing
import LightFS.Cluster.Discovery
import LightFS.Library.Checks
import LightFS.Engine.CoreAffinity
import LightFS.Gateway.Placement
import LightFS.Library.RingQueue
import LightFS.Library.Handout
import LightFS.Library.HornerHash
import LightFS.Engine.Mkfs
import LightFS.Engine.Mount
import LightFS.Storage.ReplyBuffer
import LightFS.Storage.ClientResponses
import LightFS.Cluster.Join
import LightFS.Access.SocketAccounting
import LightFS.Library.Heap
import LightFS.Library.ObjectDecoder
import LightFS.Engine.JsonValues
import LightFS.Storage.ServerMemory
import LightFS.Storage.BlockOwnership
import LightFS.Storage.MemoryRefinement
import LightFS.Storage.ClientMemory
import LightFS.Storage.StatfsCalls
import LightFS.Access.Dispatch
import LightFS.Access.ConnectionMemory
import LightFS.Cluster.Membership
import LightFS.Meta.ShardMemory
import LightFS.Gateway.Processes
import LightFS.Engine.Device
import LightFS.Engine.Configuration
import LightFS.Gateway.EncoderMemory
import LightFS.Gateway.GatewayMemory
