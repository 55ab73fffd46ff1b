import GraphileWorker.Migrations.SharedLines

/-! # The files `m000019.sql` to `m000022.sql` -/
namespace GraphileWorker.Migrations.Scripts

set_option maxRecDepth 4096

def m000019 : Script where
  stmts := [addJobsLocks ++ ["    on conflict do nothing;
"] ++ insertQueueNames ++ ["    on conflict do nothing;

    update @._private_jobs as jobs"] ++ retireLocked ++ [""] ++ notifyCount ++ addJobsInsert ++ addJobsReset ++ ["$$;"],
 addJobHead ++ addJobReplaces ++ dedupeChecked ++ ["        values (identifier)
        on conflict do nothing;
"] ++ insertQueueName ++ ["
        insert into @._private_jobs as jobs ("] ++ dedupeColumns ++ dedupeConflict ++ [""] ++ notifyInserted ++ [""] ++ addJobEnd]

def m000020 : Script where
  stmts := [["CREATE TABLE @._private_workers (
    id text PRIMARY KEY,
    last_heartbeat_at timestamptz NOT NULL,
    started_at timestamptz NOT NULL DEFAULT now(),
    metadata jsonb
);"],
 ["CREATE INDEX _private_workers_last_heartbeat_at_idx
    ON @._private_workers (last_heartbeat_at);"],
 ["CREATE FUNCTION @.worker_heartbeat("] ++ heartbeatUpsert,
 deregisterLines,
 ["CREATE FUNCTION @.list_stale_workers("] ++ staleList,
 ["CREATE FUNCTION @.list_orphan_locked_workers("] ++ staleWorkers,
 ["CREATE FUNCTION @.recover_dead_worker_jobs("] ++ recoverHead ++ recoveredQueues,
 ["CREATE FUNCTION @.delete_stale_workers(
    worker_ids text[]
) RETURNS void
LANGUAGE sql
AS $$
    DELETE FROM @._private_workers AS workers
    WHERE workers.id = ANY(worker_ids);
$$;"]]

def m000021 : Script where
  stmts := [["-- Port graphile/worker#623 while preserving Rust migration 19 key locking."] ++ addJobsLocks ++ missingNames ++ ["    update @._private_jobs as jobs"] ++ retireLocked ++ [""] ++ notifyCount ++ addJobsInsert ++ addJobsReset ++ ["$$;"],
 addJobHead ++ addJobReplaces ++ dedupeChecked ++ ["        select add_job.identifier
        where not exists (
            select 1 from @._private_tasks as existing
            where existing.identifier = add_job.identifier
        )
        on conflict do nothing;

        if queue_name is not null then
            insert into @._private_job_queues as job_queues (queue_name)
            select add_job.queue_name
            where not exists (
                select 1 from @._private_job_queues as existing
                where existing.queue_name = add_job.queue_name
            )
            on conflict do nothing;
        end if;

        insert into @._private_jobs as jobs ("] ++ dedupeColumns ++ dedupeConflict ++ [""] ++ notifyInserted ++ [""] ++ addJobEnd,
 ["-- Also support upgrades from upstream revision 20, which has no recovery objects.
CREATE TABLE IF NOT EXISTS @._private_workers (
    id text PRIMARY KEY,
    last_heartbeat_at timestamptz NOT NULL,
    started_at timestamptz NOT NULL DEFAULT now(),
    metadata jsonb
);"],
 ["CREATE INDEX IF NOT EXISTS _private_workers_last_heartbeat_at_idx
    ON @._private_workers (last_heartbeat_at);"],
 ["CREATE OR REPLACE FUNCTION @.worker_heartbeat("] ++ heartbeatUpsert,
 ["CREATE OR REPLACE FUNCTION @.worker_deregister(worker_id text) RETURNS void
LANGUAGE sql
AS $$
    DELETE FROM @._private_workers
    WHERE id = worker_deregister.worker_id;
$$;"],
 ["CREATE OR REPLACE FUNCTION @.list_stale_workers("] ++ staleList,
 ["CREATE OR REPLACE FUNCTION @.list_orphan_locked_workers("] ++ staleWorkers,
 ["CREATE OR REPLACE FUNCTION @.recover_dead_worker_jobs("] ++ recoverHead ++ recoveredQueues,
 ["CREATE OR REPLACE FUNCTION @.delete_stale_workers(
    worker_ids text[]
) RETURNS void
LANGUAGE sql
AS $$
    DELETE FROM @._private_workers AS workers
    WHERE workers.id = ANY(worker_ids);
$$;"]]

def m000022 : Script where
  stmts := [["-- Explicitly distinguish replaced jobs from ordinary final attempts.
CREATE TABLE @._private_job_retirements (
    id bigint PRIMARY KEY REFERENCES @._private_jobs(id) ON DELETE CASCADE
);"],
 ["-- Retain ownership until the handler releases the job and its named queue."] ++ addJobsLocks ++ missingNames ++ ["    with retired as (
        update @._private_jobs as jobs
        set
            key = null,
            attempts = jobs.max_attempts,
            updated_at = now()
        from unnest(specs) spec
        where spec.job_key is not null
        and jobs.key = spec.job_key
        and is_available is not true
        returning jobs.id
    )
    insert into @._private_job_retirements(id)
    select id from retired
    on conflict do nothing;
"] ++ notifyCount ++ addJobsInsert ++ addJobsReset ++ ["$$;"],
 ["CREATE OR REPLACE FUNCTION @.recover_dead_worker_jobs(
    worker_ids text[],
    recovery_delay interval DEFAULT interval '0 seconds'
) RETURNS integer
LANGUAGE plpgsql
AS $$
DECLARE
    recovered_count integer := 0;
BEGIN
    -- Take row locks before the statement that reads retirement markers.
    PERFORM 1 FROM @._private_jobs AS jobs
    WHERE jobs.locked_by = ANY(worker_ids)
    ORDER BY jobs.id
    FOR UPDATE;

    WITH j AS ("] ++ recoverUpdate ++ ["            ) THEN jobs.attempts
                ELSE GREATEST(0, jobs.attempts - 1) END,"] ++ recoveredQueues,
 ["CREATE OR REPLACE FUNCTION @.reschedule_jobs(job_ids bigint[], run_at timestamp with time zone DEFAULT NULL::timestamp with time zone, priority integer DEFAULT NULL::integer, attempts integer DEFAULT NULL::integer, max_attempts integer DEFAULT NULL::integer) RETURNS SETOF @._private_jobs
LANGUAGE plpgsql
AS $$
BEGIN
    -- Explicit revival must see and clear a concurrently committed retirement.
    PERFORM 1 FROM @._private_jobs AS jobs
    WHERE jobs.id = ANY(job_ids)
    AND (jobs.locked_at IS NULL OR jobs.locked_at < now() - interval '4 hours')
    ORDER BY jobs.id
    FOR UPDATE;

    RETURN QUERY WITH updated AS ("] ++ rescheduleUpdate ++ ["    RETURNING *
    ), cleared AS (
        DELETE FROM @._private_job_retirements AS retired
        USING updated
        WHERE retired.id = updated.id
    )
    SELECT * FROM updated;
END;
$$;"],
 ["CREATE OR REPLACE FUNCTION @.remove_job(job_key text) RETURNS @._private_jobs"] ++ removeUnlocked ++ removeLocked ++ ["    IF v_job.id IS NOT NULL THEN
        INSERT INTO @._private_job_retirements(id)
        VALUES (v_job.id) ON CONFLICT DO NOTHING;
    END IF;
    RETURN v_job;
end;
$$;"],
 ["CREATE OR REPLACE FUNCTION @.permanently_fail_jobs(job_ids bigint[], error_message text DEFAULT NULL::text) RETURNS SETOF @._private_jobs
LANGUAGE sql
AS $$
    WITH retired AS ("] ++ failUpdate ++ ["    RETURNING *
    ), marked AS (
        INSERT INTO @._private_job_retirements(id)
        SELECT id FROM retired
        ON CONFLICT DO NOTHING
    )
    SELECT * FROM retired;
$$;"],
 ["-- Lock first, then read retirement state in a fresh READ COMMITTED snapshot.
-- A single UPDATE with a marker subquery can miss a retirement committed while
-- the UPDATE was waiting for the job row lock.
CREATE FUNCTION @._private_return_jobs(
    worker_id text,
    job_ids bigint[],
    recovery_delay_ms bigint DEFAULT NULL,
    recovery_error text DEFAULT NULL,
    update_recovery_metadata boolean DEFAULT false
) RETURNS void
LANGUAGE plpgsql
AS $$
BEGIN
    PERFORM 1 FROM @._private_jobs AS jobs
    WHERE jobs.id = ANY(job_ids) AND jobs.locked_by = worker_id
    ORDER BY jobs.id
    FOR UPDATE;

    WITH returned AS ("] ++ recoverUpdate ++ ["            ) THEN jobs.attempts ELSE GREATEST(0, jobs.attempts - 1) END,
            locked_by = NULL,
            locked_at = NULL,
            run_at = CASE WHEN update_recovery_metadata AND recovery_delay_ms IS NOT NULL
                THEN GREATEST(jobs.run_at, now() + recovery_delay_ms * interval '1 millisecond')
                ELSE jobs.run_at END,
            last_error = CASE WHEN update_recovery_metadata
                THEN COALESCE(recovery_error, jobs.last_error) ELSE jobs.last_error END,
            updated_at = CASE WHEN update_recovery_metadata THEN now() ELSE jobs.updated_at END
        WHERE jobs.id = ANY(job_ids) AND jobs.locked_by = worker_id
        RETURNING jobs.job_queue_id
    )
    UPDATE @._private_job_queues AS queues
    SET locked_by = NULL, locked_at = NULL
    FROM returned
    WHERE queues.id = returned.job_queue_id AND queues.locked_by = worker_id;
END;
$$;"]]

end GraphileWorker.Migrations.Scripts
