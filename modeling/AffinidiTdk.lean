import AffinidiTdk.Auth.Binding
import AffinidiTdk.Auth.OneTime
import AffinidiTdk.Auth.TokenKinds
import AffinidiTdk.Bbs.NymProof
import AffinidiTdk.Bbs.Soundness
import AffinidiTdk.Cesr.Canonical
import AffinidiTdk.Cesr.Indexer
import AffinidiTdk.Credentials.Compact
import AffinidiTdk.Didcomm.Forward
import AffinidiTdk.Didcomm.Sender
import AffinidiTdk.Forwarding.RateTracker
import AffinidiTdk.Mediator.SelfChange
import AffinidiTdk.Mediator.WireAcl
import AffinidiTdk.Mediator.QueueLimits
import AffinidiTdk.Mediator.Isolation
import AffinidiTdk.Mediator.RootAdmin
import AffinidiTdk.Mediator.Equivalence
import AffinidiTdk.Routing.ForwardSender
import AffinidiTdk.Routing.RemoteForward
import AffinidiTdk.Store.AtLeastOnce
import AffinidiTdk.Store.Idempotence
import AffinidiTdk.Store.PurgeRace
import AffinidiTdk.Tsp.AcceptBinding
import AffinidiTdk.Tsp.Ingress
import AffinidiTdk.Websocket.Redelivery
import AffinidiTdk.Websocket.Registered
import AffinidiTdk.Websocket.Slots
import AffinidiTdk.Credentials.Completeness
import AffinidiTdk.Credentials.StatusList
import AffinidiTdk.Credentials.StatusProgress
import AffinidiTdk.Jsonld.Soundness
import AffinidiTdk.Jsonld.BlankNodes
import AffinidiTdk.DataIntegrity.Unsigned
import AffinidiTdk.Did.Resolution
import AffinidiTdk.Jsonld.Lossless
import AffinidiTdk.DataIntegrity.Multi
import AffinidiTdk.Secrets.SaveLoad
import AffinidiTdk.Mdoc.Authenticity
import AffinidiTdk.Mdoc.Transcript
import AffinidiTdk.Auth.SessionAgreement
import AffinidiTdk.Didcomm.PackUnpack
import AffinidiTdk.Secrets.Linearized
import AffinidiTdk.Store.AccessListAgreement
import AffinidiTdk.Store.Pagination
import AffinidiTdk.Store.FjallSweep
import AffinidiTdk.LiveStream.Delivery
import AffinidiTdk.Trust.Registry
import AffinidiTdk.Rdf.QuadIndex
import AffinidiTdk.Rdf.Termination
import AffinidiTdk.Resolver.NetworkRuns
import AffinidiTdk.Resolver.SingleFlight
import AffinidiTdk.Store.MessageAgreement
import AffinidiTdk.Store.ForwardRestarts
import AffinidiTdk.Store.CircuitBreaker
import AffinidiTdk.Did.WebUrl
import AffinidiTdk.Did.KeyMaterial
import AffinidiTdk.Didcomm.KeyNegotiation
import AffinidiTdk.DataIntegrity.SelectExact
import AffinidiTdk.DataIntegrity.Relabel
import AffinidiTdk.Oid4vp.Matching
import AffinidiTdk.Mdoc.Received
import AffinidiTdk.Mdoc.IssuanceExact
import AffinidiTdk.Mdoc.DeviceSignature
import AffinidiTdk.Mdoc.Conversion
import AffinidiTdk.Lib.Machine
import AffinidiTdk.LiveStream.Loop
import AffinidiTdk.LiveStream.MissedPong
import AffinidiTdk.LiveStream.Sends
import AffinidiTdk.Trust.XmlTree
import AffinidiTdk.Trust.XmlParts
import AffinidiTdk.Lib.Panics
import AffinidiTdk.Cesr.Counter
import AffinidiTdk.Oid4vc.KeyProof
import AffinidiTdk.Oid4vc.Thumbprint
import AffinidiTdk.Credentials.SdJwtVc
