import VStream.Cpp.Outcome
import VStream.Cpp.Endings
import VStream.Cpp.Text
import VStream.Cpp.Search
import VStream.Cpp.Number
import VStream.Cpp.Stream
import VStream.Cpp.Fields
import VStream.Cpp.CharArray
import VStream.Cpp.RangeFor
import VStream.Dns.Header
import VStream.Dns.Question
import VStream.Dns.Record
import VStream.Dns.Cut
import VStream.Net.Socket
import VStream.Dns.Transport
import VStream.Stream.Handover
import VStream.Dns.Delivery
import VStream.Dns.Bounds
import VStream.Nameserver.RoundRobin
import VStream.Graph.ShortestPath
import VStream.Graph.BestFirst
import VStream.Graph.Nearest
import VStream.Nameserver.Topology
import VStream.Nameserver.Network
import VStream.Nameserver.Search
import VStream.Nameserver.Nearest
import VStream.Nameserver.Cache
import VStream.Nameserver.Sweep
import VStream.Nameserver.Distances
import VStream.Nameserver.Choice
import VStream.Nameserver.Rearrange
import VStream.Nameserver.Addresses
import VStream.Nameserver.Registration
import VStream.Nameserver.Links
import VStream.Nameserver.Layout
import VStream.Nameserver.Connection
import VStream.Nameserver.Rotation
import VStream.Nameserver.Turns
import VStream.Nameserver.Lookups
import VStream.Nameserver.Directory
import VStream.Nameserver.Reception
import VStream.Nameserver.Residue
import VStream.Nameserver.ReplyHeader
import VStream.Nameserver.Program
import VStream.Stream.Flushing
import VStream.MiProxy.DnsClient
import VStream.MiProxy.Connection
import VStream.MiProxy.Proxy
import VStream.MiProxy.Steps
import VStream.MiProxy.Chunks
import VStream.Http.Request
import VStream.Http.Section
import VStream.MiProxy.Requests
import VStream.MiProxy.Adaptation
import VStream.MiProxy.Selection
import VStream.MiProxy.Manifest
import VStream.MiProxy.Header
import VStream.Resource.Ownership
import VStream.MiProxy.Descriptors
import VStream.MiProxy.Rounds
import VStream.MiProxy.Listing
import VStream.MiProxy.Containment
import VStream.MiProxy.Provenance
import VStream.MiProxy.Framing
import VStream.MiProxy.Dialogue
import VStream.MiProxy.Forwarding
import VStream.MiProxy.Session
import VStream.MiProxy.Reconnect
import VStream.Machine.Parallel
import VStream.MiProxy.Isolation
import VStream.MiProxy.Accounts
import VStream.MiProxy.Run
import VStream.MiProxy.Leaks
import VStream.MiProxy.Log
import VStream.MiProxy.Player
import VStream.MiProxy.Failures
import VStream.MiProxy.Program
import VStream.MiProxy.Resolution
import VStream.Series.Smoothing
import VStream.MiProxy.Settling
import VStream.System.Exchange
import VStream.System.Segments
import VStream.System.Arrivals
import VStream.System.Startup
