import SharedKernel.Cache.FaultModel
import SharedKernel.Cqrs.EventDelivery
import SharedKernel.Cqrs.LateCompensation
import SharedKernel.Cqrs.RejectedRegistration
import SharedKernel.Cqrs.RetryMetrics
import SharedKernel.Cqrs.StoreFailures
import SharedKernel.Database.NestingGuard
import SharedKernel.Grpc.CorruptEntries
import SharedKernel.Grpc.FreshAnswer
import SharedKernel.Grpc.MessageStreams
import SharedKernel.Grpc.OwnEntries
import SharedKernel.Grpc.RoleInvalidation
import SharedKernel.Logger.LaterArguments
import SharedKernel.Logger.LogGraph
import SharedKernel.Logger.Lossless
import SharedKernel.Logger.NoSecretSurvives
import SharedKernel.Logger.RedactCalls
import SharedKernel.Messaging.CommittedOffset
import SharedKernel.Messaging.ReplayCount
import SharedKernel.Messaging.Routing
import SharedKernel.Outbox.CommittedEvents
import SharedKernel.Outbox.Drain
import SharedKernel.Outbox.HandledInOrder
import SharedKernel.Outbox.HandledOnce
import SharedKernel.Placement.PurityVerdict
import SharedKernel.Resilience.FailFast
import SharedKernel.Resilience.FailureCount
import SharedKernel.Tracing.W3cHeader
