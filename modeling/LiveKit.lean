import LiveKit.DataTrack.EndToEnd
import LiveKit.DataTrack.Remote.HandleIndex
import LiveKit.DataTrack.Remote.Decryption
import LiveKit.DataTrack.Remote.Teardown
import LiveKit.DataTrack.Local.Unpublish
import LiveKit.DataTrack.Local.Known
import LiveKit.DataTrack.Local.Encryption
import LiveKit.DataTrack.Remote.Intent
import LiveKit.DataTrack.ControlEvents
import LiveKit.DataTrack.Remote.JoinView
import LiveKit.DataStream.Completion
import LiveKit.RtcSession.Retry
import LiveKit.RtcSession.Resume
import LiveKit.RtcSession.ExactlyOnce
import LiveKit.DcSender.WholeFrames
import LiveKit.DcSender.FlowControl
import LiveKit.RtcSession.NegotiationTheorems
import LiveKit.RtcEngine.Reconnection
import LiveKit.RtcEngine.SyncStateTheorems
import LiveKit.SignalClient.Deadlock
import LiveKit.SignalClient.Order
import LiveKit.Room.RpcTheorems
import LiveKit.Room.PublicationTheorems
import LiveKit.Room.RequestTheorems
import LiveKit.Ffi.PublicationHandles
import LiveKit.Ffi.AnswerTheorems
import LiveKit.Ffi.ParticipantStreamTheorems
import LiveKit.Room.ParticipantUpdateTheorems
import LiveKit.Room.TrackUpdateTheorems
import LiveKit.Video.CvtTheorems
import LiveKit.Room.E2eeManagerTheorems
import LiveKit.PacketTrailer.PipelineTheorems
import LiveKit.DataStream.EncryptionTheorems
import LiveKit.Room.EventLoopTheorems
import LiveKit.PeerTransport.CandidateTheorems
import LiveKit.DataStream.WriteToFileTheorems
import LiveKit.Ffi.StreamWriterTheorems
import LiveKit.Room.KeyProviderTheorems
import LiveKit.Room.SpeakerTheorems
import LiveKit.RtcEngine.SessionTheorems
import LiveKit.DataStream.Utf8ChunkTheorems
import LiveKit.RtcSession.TtlMapTheorems
import LiveKit.DataTrack.Packet.Safety
import LiveKit.DataTrack.Remote.Accounting
import LiveKit.DataTrack.Packet.MediaClock
import LiveKit.PacketTrailer.StartCodes
import LiveKit.PacketTrailer.MetadataMapTheorems
import LiveKit.PeerTransport.FormatParams
import LiveKit.Room.EncryptionStatusTheorems
import LiveKit.Room.RoomMoveTokens
import LiveKit.Room.Subscription
import LiveKit.Room.LocalPublicationTheorems
import LiveKit.Audio.QueueSizes
import LiveKit.Streams.FrameQueueWakers
import LiveKit.Ffi.SoxResampler
import LiveKit.Ffi.HandleStoreTheorems
import LiveKit.Audio.SwitchDevice
import LiveKit.Ffi.DataTrackStream
import LiveKit.Video.SizeChecks
import LiveKit.RtcSession.TxQueueTheorems
import LiveKit.Audio.AudioFilter
import LiveKit.Room.Promise
